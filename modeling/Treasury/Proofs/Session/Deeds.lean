import Treasury.Proofs.Activation.Evidence
import Treasury.Proofs.Session.Course

/-!
# What is done in a session

A call of a session comes to one call of its machine at most, maybe after a change to the table. So
what is done in a session can be read off the logs of the machine, and there is one course that a
run follows: that of the effects which its calls carry out.

* `Session.relayed` is the call of the machine that a call of the session comes to, with the table
  that the machine finds then, and `Session.machine_after` says so.
* `Session.deeds` and `Session.executions` are what the calls of a run do, and the effects that they
  carry out.
* `Session.course_afterAll`: a run follows the course of these effects.
-/

namespace Treasury

namespace Session

variable (r : Rules) (s : Session)

/-! ## Calls of the machine -/

/-- Playing a card: the table as it is when the machine is called or the play has failed, and the
call of the machine if it comes to that. -/
def playing (instanceId : String) : Table × Option HostCall :=
  match s.playable r instanceId with
  | .error _ => (s.machine.table, none)
  | .ok (c, d) =>
    match exec (Economy.consumeAction r) s.machine.table with
    | (.ok true, t) =>
      match exec (Deck.play r c) t with
      | (.ok _, u) => (u, some (.start d.effects (some c)))
      | (.error _, u) => (u, none)
    | (_, t) => (t, none)

/-- What a call of the session comes to: the table as it is when the machine is called or the call
has failed, and the call of the machine if it comes to that. -/
def relayed : SessionCall → Table × Option HostCall
  | .play instanceId =>
    if s.status = .active then s.playing r instanceId else (s.machine.table, none)
  | .trigger eventId choiceId =>
    match s.status, s.groupsOf r eventId choiceId with
    | .active, .ok groups => (s.machine.table, some (.start groups none))
    | _, _ => (s.machine.table, none)
  | .select ids => (s.machine.table, some (.answer (.pick ids)))
  | .cancel => (s.machine.table, some (.answer .pass))
  | .start groups source => (s.machine.table, some (.start groups source))
  | .command (.start groups none) => (s.machine.table, some (.start groups none))
  | .command (.start groups (some id)) =>
    ({ s.machine.table with game := (s.game.cardNamed id).2 },
      some (.start groups (some (s.game.cardNamed id).1)))
  | .command (.resume ids) => (s.machine.table, some (.answer (.pick ids)))
  | .command .cancel => (s.machine.table, some (.answer .pass))
  | .command .preview => (s.machine.table, none)

variable {r : Rules} {s : Session}

/-- The machine after a call of it, by way of the session. -/
theorem machine_engine {call : Engine.Tell → Run Outcome} (c : HostCall)
    (hcall : s.machine.run r call = s.machine.call r c) :
    (exec (engine r call) s).2.machine = (s.machine.call r c).2 := by
  rw [exec_engine, hcall]
  rcases s.machine.call r c with ⟨e | o, m⟩
  · rfl
  · rfl

/-- What comes after the player was found free to play is done only where he is. -/
theorem snd_exec_ready_bind (f : Unit → Call Outcome) :
    (exec (ready >>= f) s).2 = if s.status = .active then (exec (f ()) s).2 else s := by
  unfold ready
  rw [bind_assoc, exec_get_bind]
  rcases hstatus : s.status with _ | _ | _ <;> rfl

/-- A card that is played comes to the call of the machine. -/
theorem machine_play (instanceId : String) (hactive : s.status = .active) :
    (exec (play r instanceId) s).2.machine =
      (s.withTable (s.playing r instanceId).1).machine.afterCalls r
        (s.playing r instanceId).2.toList := by
  unfold play playing
  rw [snd_exec_ready_bind, if_pos hactive, exec_get_bind]
  rcases s.playable r instanceId with e | ⟨c, d⟩
  · rfl
  · -- The action has to be spent and the card to be moved before the machine is called at all.
    dsimp only
    rw [exec_act_bind]
    rcases exec (Economy.consumeAction r) s.machine.table with ⟨f | spent, t⟩
    · rfl
    · cases spent with
      | false => rfl
      | true =>
        dsimp only
        rw [if_pos rfl, exec_act_bind]
        rw [show (s.withTable t).machine.table = t from rfl]
        rcases exec (Deck.play r c) t with ⟨f | moved, u⟩
        · rfl
        · exact machine_engine (.start d.effects (some c)) rfl

/-- Whatever the call, the machine after it is as the call of the machine leaves it. -/
theorem machine_after (s : Session) (c : SessionCall) :
    (s.after r c).machine =
      (s.withTable (s.relayed r c).1).machine.afterCalls r (s.relayed r c).2.toList := by
  cases c with
  | play instanceId =>
    by_cases hactive : s.status = .active
    · rw [relayed, if_pos hactive]
      exact machine_play instanceId hactive
    · rw [relayed, if_neg hactive, after, play, snd_exec_ready_bind, if_neg hactive]
      rfl
  | trigger eventId choiceId =>
    rw [after, trigger, snd_exec_ready_bind, exec_get_bind, relayed]
    rcases hstatus : s.status with _ | _ | _
    · rcases hgroups : s.groupsOf r eventId choiceId with e | groups
      · rfl
      · exact machine_engine (.start groups none) rfl
    · rfl
    · rfl
  | select ids => exact machine_engine (.answer (.pick ids)) rfl
  | cancel => exact machine_engine (.answer .pass) rfl
  | start groups source => rfl
  | command c =>
    -- A command differs from the call of it by its reply, and a start may name a card before.
    cases c with
    | start groups source =>
      cases source with
      | none => exact congrArg Prod.snd (exec_map _ Reply.outcome s.machine)
      | some id =>
        change (exec (Engine.perform _ r (.start groups (some id))) s.machine).2 = _
        rw [Engine.perform, exec_bind, exec_map, Run.exec_play, Play.exec_makeFromGame]
        exact congrArg Prod.snd (exec_map _ Reply.outcome _)
    | resume ids => exact congrArg Prod.snd (exec_map _ Reply.outcome s.machine)
    | cancel => exact congrArg Prod.snd (exec_map _ Reply.outcome s.machine)
    | preview => rfl

/-! ## Runs -/

/-- What a call does. -/
def deedsOf (r : Rules) (s : Session) (c : SessionCall) : List Deed :=
  (s.withTable (s.relayed r c).1).machine.deeds r (s.relayed r c).2.toList

/-- What calls do, one after another. -/
def deeds (r : Rules) : Session → List SessionCall → List Deed
  | _, [] => []
  | s, c :: rest => s.deedsOf r c ++ deeds r (s.after r c) rest

/-- The effects that calls carry out, in order. -/
def executions (r : Rules) (s : Session) (calls : List SessionCall) : List Execution :=
  Deed.executionsIn (s.deeds r calls)

end Session

namespace Scene

variable {r : Rules} {s s' : Scene}

/-- Every step carries an effect out, or it throws dice or names a card at most. -/
theorem Step.course {d : Option Deed} (hstep : Step r s d s') :
    s.machine.table.Course r (Deed.executionsIn d.toList) s'.machine.table := by
  cases hstep with
  | rolled _ _ hroll => exact .of_step (Table.Step.rolled hroll)
  | named m _ id => exact .of_step (Table.Step.named m.table id)
  | @carriedOut m p targets t u magnitude y hcurrent hfetched hmagnitude hy =>
    -- Dice may be thrown for the targets and for the magnitude.
    have hbefore : m.table.Course r [] y.before := by
      rw [hy]
      exact .of_step (Table.Step.rolled (hfetched.rolled_magnitude hmagnitude))
    exact hbefore.snoc (.carriedOut y)
  | faulted _ _ hfetched hmagnitude =>
    exact .of_step (Table.Step.rolled (hfetched.rolled_magnitude hmagnitude))
  | _ => exact .refl _

/-- So a history is a course of the effects that are carried out in it. -/
theorem Path.course {h : List Deed} (hpath : Path r s h s') :
    s.machine.table.Course r (Deed.executionsIn h) s'.machine.table := by
  induction hpath with
  | refl => exact .refl _
  | snoc _ hstep ih =>
    rw [Deed.executionsIn_append]
    exact ih.trans hstep.course

end Scene

namespace Session

variable {r : Rules}

/-- Playing a card spends an action and moves the card. -/
theorem course_playing (s : Session) (instanceId : String) :
    s.machine.table.Course r [] (s.playing r instanceId).1 := by
  unfold playing
  rcases hplayable : s.playable r instanceId with e | ⟨c, d⟩
  · exact .refl _
  · have hspent : s.machine.table.Course r []
        (exec (Economy.consumeAction r) s.machine.table).2 := .of_step (Table.Step.spent _)
    have hsame := s.machine.table.zones_consumeAction (r := r)
    dsimp only
    rcases hdone : exec (Economy.consumeAction r) s.machine.table with ⟨f | spent, t⟩ <;>
      rw [hdone] at hspent hsame
    · exact hspent
    · cases spent with
      | false => exact hspent
      | true =>
        -- The card is in hand, and the action that is spent for it leaves it there.
        have hhand : c ∈ t.game.zones.hand := by
          rw [hsame]
          exact List.mem_of_find?_eq_some (named?_of_playable hplayable).1
        have hplayed := hspent.silent (.played hhand)
        dsimp only
        rcases hmoved : exec (Deck.play r c) t with ⟨f | moved, u⟩ <;> rw [hmoved] at hplayed
        · exact hplayed
        · exact hplayed

/-- Before the machine is called, no effect is carried out. -/
theorem course_relayed (s : Session) (c : SessionCall) :
    s.machine.table.Course r [] (s.relayed r c).1 := by
  cases c with
  | play instanceId =>
    rw [relayed]
    split
    · exact s.course_playing instanceId
    · exact .refl _
  | trigger eventId choiceId =>
    rw [relayed]
    split <;> exact .refl _
  | command c =>
    cases c with
    | start groups source =>
      cases source with
      | none => exact .refl _
      | some id => exact .of_step (Table.Step.named s.machine.table id)
    | _ => exact .refl _
  | _ => exact .refl _

/-- A call follows the course of the effects that it carries out. -/
theorem course_after (s : Session) (c : SessionCall) :
    s.machine.table.Course r (Deed.executionsIn (s.deedsOf r c)) (s.after r c).machine.table := by
  have hmade := (Machine.doesAll_deeds (r := r) (s.relayed r c).2.toList
    (s.withTable (s.relayed r c).1).machine).path.course
  rw [machine_after]
  exact (s.course_relayed c).trans hmade

/-- So does a run. -/
theorem course_afterAll (s : Session) (calls : List SessionCall) :
    s.machine.table.Course r (s.executions r calls) (s.afterAll r calls).machine.table := by
  induction calls generalizing s with
  | nil => exact .refl _
  | cons c rest ih =>
    rw [executions, deeds, Deed.executionsIn_append]
    exact (s.course_after c).trans (ih (s.after r c))

end Session

end Treasury
