import Treasury.Proofs.Activation.Reporting
import Treasury.Proofs.Execution.Belongings
import Treasury.Proofs.Session.Ending

/-!
# How a player spends actions

An action is spent by the session when a card is played, and actions are granted by effects, maybe
long after and in activations that other calls have begun. Every effect that grants some is told to
the recorder of the session, so the two can be set against each other after any calls. A call that
is refused charges nothing, though an action is spent before the machine is asked.

* `Session.Plays` is what playing a card comes to: an action is there and spent, the card moves, and
  from there an activation is started.
* `Session.plays_of_isOk`: a play that is answered comes to that.
* `Session.balances_call` is the step, and `Session.actions_of_calls` the statement for all calls
  since the session was created.
-/

namespace Treasury

/-- Whether a call plays a card. -/
def PlayerCall.isPlay : PlayerCall → Bool
  | .play _ => true
  | _ => false

/-- Every grant of actions is in the result of an effect. -/
theorem GameState.reported_actions (r : Rules) : Reported r (·.actions) (·.granted) where
  failed := EffectResult.granted_failed
  execute a t := a.actions_execute r t

/-- Where an action is spent there was one. -/
theorem Economy.spent_of_consumeAction {r : Rules} {t u : Table}
    (h : exec (consumeAction r) t = (.ok true, u)) : 1 ≤ t.game.actions ∧
      u = { t with game := { t.game with actions := t.game.actions - 1 } } := by
  obtain ⟨f, hdone⟩ | ⟨-, hdone⟩ | ⟨hsome, hdone⟩ := exec_consumeAction_cases r t <;>
    cases hdone.symm.trans h
  exact ⟨hsome, rfl⟩

/-- A card that is played moves from the hand to the end of the play area. -/
theorem Deck.moved_of_play {r : Rules} {c : Card} {t u : Table} {a : Unit}
    (h : exec (play r c) t = (.ok a, u)) : u = { t with game := { t.game with zones :=
      { t.game.zones with hand := t.game.zones.hand.without c,
                          play := t.game.zones.play ++ [c] } } } := by
  obtain ⟨f, hdone⟩ | ⟨-, hdone⟩ := exec_play_cases r c t <;> cases hdone.symm.trans h
  rfl

/-- The first card of an id is the one that is taken out of a pile for it. -/
theorem Pile.exists_of_named? {p : Pile} {instanceId : String} {c : Card}
    (h : p.named? instanceId = some c) : ∃ before after, p = before ++ c :: after ∧
      c.instanceId = instanceId ∧ p.without c = before ++ after := by
  obtain ⟨hid, before, after, rfl, hbefore⟩ := List.find?_eq_some_iff_append.mp h
  have hid : c.instanceId = instanceId := by simpa using hid
  refine ⟨before, after, rfl, hid, ?_⟩
  have hother : ∀ d ∈ before, ¬ d.same c = true := by
    intro d hd hsame
    have hne := hbefore d hd
    simp only [Card.same, decide_eq_true_eq] at hsame
    simp [hsame, hid] at hne
  unfold without
  rw [List.eraseP_append_right _ hother, List.eraseP_cons_of_pos (by simp [Card.same])]

namespace Session

variable {r : Rules} {s : Session}

/-- The session after calls one after another, whether or not they fail. -/
def afterCalls (r : Rules) (s : Session) (cs : List PlayerCall) : Session :=
  cs.foldl (fun s c => (s.call r c).2) s

/-- How many of some calls play a card and are answered. -/
def plays (r : Rules) (s : Session) (cs : List PlayerCall) : Nat :=
  (cs.zip (s.calls r cs)).countP fun made => made.1.isPlay && made.2.1.isOk

/-- The actions granted by the results that the recorder was told of. -/
def granted (s : Session) : Int := (s.machine.record.map (Event.gained (·.granted))).sum

/-- The session after a card of the hand was played, with the cards before and behind it, but none
of its effects was resolved yet. -/
def withPlayed (s : Session) (before : Pile) (c : Card) (after : Pile) : Session :=
  s.withTable { s.machine.table with
    game := { s.game with
      actions := s.game.actions - 1
      zones := { s.game.zones with
        hand := before ++ after, play := s.game.zones.play ++ [c] } } }

/-- A call plays a card by its id: there is an action, which is spent, the card of that id moves
from the hand to the end of the play area, and with that done an activation of its effects is
started. -/
def Plays (r : Rules) (s : Session) (instanceId : String)
    (done : Except SessionError Outcome × Session) : Prop :=
  1 ≤ s.game.actions ∧ ∃ before c after d, s.game.zones.hand = before ++ c :: after ∧
    c.instanceId = instanceId ∧ r.catalog.card? c.cardId = some d ∧
      done = exec (engine r fun tell => Engine.start tell r d.effects (some c))
        (s.withPlayed before c after)

/-- A call that is answered found the player free to play. -/
theorem exec_ready_bind_of_isOk {f : Unit → Call Outcome}
    (h : (exec (ready >>= f) s).1.isOk = true) : exec (ready >>= f) s = exec (f ()) s := by
  unfold ready at h ⊢
  rw [bind_assoc, exec_get_bind] at h ⊢
  rcases hstatus : s.status with _ | _ | _ <;> rw [hstatus] at h
  · rfl
  · cases h
  · cases h

/-- A call that is answered went on after every action on the table. -/
theorem exec_act_bind_of_isOk {α : Type} {x : Play α} {f : α → Call Outcome}
    (h : (exec (act x >>= f) s).1.isOk = true) : ∃ a t, exec x s.machine.table = (.ok a, t) ∧
      exec (act x >>= f) s = exec (f a) (s.withTable t) := by
  rw [exec_act_bind] at h ⊢
  rcases hdone : exec x s.machine.table with ⟨fault | a, t⟩ <;> rw [hdone] at h
  · cases h
  · exact ⟨a, t, rfl, rfl⟩

/-- A play that is answered found an action, and moved the card before anything else. -/
theorem plays_of_isOk {instanceId : String} (h : (s.call r (.play instanceId)).1.isOk = true) :
    s.Plays r instanceId (s.call r (.play instanceId)) := by
  change (exec (play r instanceId) s).1.isOk = true at h
  change s.Plays r instanceId (exec (play r instanceId) s)
  unfold play at h ⊢
  have hready := exec_ready_bind_of_isOk h
  rw [hready, exec_get_bind] at h ⊢
  -- As the call succeeds, so does each part of it: finding the card, spending an action, moving it.
  rcases hplayable : s.playable r instanceId with e | ⟨c, d⟩ <;> rw [hplayable] at h
  · cases h
  · dsimp only at h ⊢
    obtain ⟨spent, t, hspent, hrest⟩ := exec_act_bind_of_isOk h
    rw [hrest] at h ⊢
    cases spent with
    | false => cases h
    | true =>
      rw [if_pos rfl] at h ⊢
      obtain ⟨_, u, hmoved, hstarted⟩ := exec_act_bind_of_isOk h
      obtain ⟨hactions, rfl⟩ := Economy.spent_of_consumeAction hspent
      obtain ⟨hnamed, hd⟩ := named?_of_playable hplayable
      obtain ⟨before, after, hhand, hid, hwithout⟩ := Pile.exists_of_named? hnamed
      obtain rfl := Deck.moved_of_play hmoved
      refine ⟨hactions, before, c, after, d, hhand, hid, hd, ?_⟩
      rw [hstarted, withPlayed, ← hwithout]
      rfl

/-! ## The ledger -/

/-- From one session to another, the recorder was told of all that was done to the actions. -/
def Balances (s s' : Session) : Prop :=
  Machine.Balances (·.actions) (·.granted) s.machine s'.machine

instance : IsPreorder Session Balances where
  refl s := Std.Refl.refl (r := Machine.Balances (·.actions) (·.granted)) s.machine
  trans _ _ _ h k := IsTrans.trans (r := Machine.Balances (·.actions) (·.granted)) _ _ _ h k

/-- A call of the machine keeps the balance. -/
theorem keeps_balances_engine {call : Engine.Tell → Run Outcome}
    (hcall : ∀ {tell}, Engine.Discreet tell →
      Keeps (Machine.Balances (·.actions) (·.granted)) (call tell)) :
    Keeps Balances (engine r call) := by
  intro s
  have hrun := Machine.run_balances (r := r) hcall s.machine
  rw [exec_engine]
  rcases hdone : s.machine.run r call with ⟨e | o, m⟩ <;> rw [hdone] at hrun
  · exact hrun
  · exact hrun

/-- Starting an activation keeps the balance. -/
theorem keeps_balances_start (groups : List Group) (source : Option Card) :
    Keeps Balances (engine r fun tell => Engine.start tell r groups source) :=
  keeps_balances_engine fun ht =>
    Engine.start_balances ht (GameState.reported_actions r) groups source

/-- A call that is answered or refused changes the actions as the recorder is told, and spends one
if it plays a card and is answered. -/
theorem balances_call (hsound : s.Sound r) (hrecorder : s.machine.observers = [.recorder])
    (c : PlayerCall) (hend : ∀ e, (s.call r c).1 = .error e → e.isRefusal = true) :
    (s.call r c).2.machine.observers = [.recorder] ∧
      (s.call r c).2.game.actions - (s.call r c).2.granted = s.game.actions - s.granted -
        if c.isPlay && (s.call r c).1.isOk then 1 else 0 := by
  rcases hdone : (s.call r c).1 with e | o
  · -- Whatever a refused call did on the way is not done after all.
    rw [(clean_call hsound c).eq_of_refused e hdone (hend e hdone)]
    refine ⟨hrecorder, ?_⟩
    simp [Except.isOk, Except.toBool]
  · have hkept (h : s.Balances (s.call r c).2) (hplay : c.isPlay = false) :
        (s.call r c).2.machine.observers = [.recorder] ∧
          (s.call r c).2.game.actions - (s.call r c).2.granted = s.game.actions - s.granted -
            if c.isPlay && (Except.ok o : Except SessionError Outcome).isOk then 1 else 0 := by
      rw [hplay]
      exact ⟨(h hrecorder).1, (h hrecorder).2.trans (Int.sub_zero _).symm⟩
    cases c with
    | play instanceId =>
      have hok : (s.call r (.play instanceId)).1.isOk = true := by rw [hdone]; rfl
      obtain ⟨-, before, c, after, d, -, -, -, hplayed⟩ := plays_of_isOk hok
      have hstart := keeps_balances_start (r := r) d.effects (some c) (s.withPlayed before c after)
      rw [← hplayed] at hstart
      obtain ⟨hrecorder', hbalance⟩ := hstart hrecorder
      refine ⟨hrecorder', ?_⟩
      show (s.call r (.play instanceId)).2.game.actions - (s.call r (.play instanceId)).2.granted =
        s.game.actions - s.granted - 1
      have hspent : (s.withPlayed before c after).machine.unreported (·.actions) (·.granted) =
          s.game.actions - 1 - s.granted := rfl
      have hafter : (s.call r (.play instanceId)).2.machine.unreported (·.actions) (·.granted) =
          (s.call r (.play instanceId)).2.game.actions -
            (s.call r (.play instanceId)).2.granted := rfl
      omega
    | trigger eventId choiceId =>
      exact hkept
        (keeps_trigger (fun groups => keeps_balances_start groups none) eventId choiceId s) rfl
    | select ids =>
      exact hkept (keeps_balances_engine (fun ht =>
        Engine.resume_balances ht (GameState.reported_actions r) ids) s) rfl
    | cancel =>
      exact hkept (keeps_balances_engine (fun ht =>
        Engine.cancel_balances ht (GameState.reported_actions r)) s) rfl

/-- Along calls that are answered or refused, the actions change as the recorder is told, and one is
spent for each play that is answered. -/
theorem balances_calls (h : s.Sound r) (hrecorder : s.machine.observers = [.recorder])
    (cs : List PlayerCall)
    (hend : ∀ done ∈ s.calls r cs, ∀ e, done.1 = .error e → e.isRefusal = true) :
    (s.afterCalls r cs).game.actions - (s.afterCalls r cs).granted =
      s.game.actions - s.granted - s.plays r cs := by
  induction cs generalizing s with
  | nil => exact (Int.sub_zero _).symm
  | cons c rest ih =>
    rw [calls, List.forall_mem_cons] at hend
    obtain ⟨hrecorder', hfirst⟩ := balances_call h hrecorder c hend.1
    have hrest := ih (h.call c hend.1) hrecorder' hend.2
    -- A call counts as a play if it plays a card and is answered.
    have hplays : s.plays r (c :: rest) = (s.call r c).2.plays r rest +
        if c.isPlay && (s.call r c).1.isOk then 1 else 0 := by
      simp [plays, calls, List.countP_cons]
    rw [hplays, show s.afterCalls r (c :: rest) = (s.call r c).2.afterCalls r rest from rfl]
    rw [hrest.trans (congrArg (· - _) hfirst)]
    split <;> push_cast <;> omega

/-- Whatever calls were made of a session since it was created, all of them answered or refused: the
actions are what they were, plus the values of all results of effects that add actions, as far as
the recorder was told of them, minus one for every play that was answered. Each of these plays found
an action left, and moved the card in question from the hand to the end of the play area before any
of its effects was resolved. -/
theorem actions_of_calls (r : Rules) (st : Store) (seed : Option Int) (game : Option GameState)
    (cs : List PlayerCall)
    (hend : ∀ done ∈ (st.create seed game).1.calls r cs, ∀ e, done.1 = .error e →
      e.isRefusal = true) :
    let s := (st.create seed game).1
    (s.afterCalls r cs).game.actions =
        s.game.actions + (s.afterCalls r cs).granted - s.plays r cs ∧
      ∀ before instanceId after, cs = before ++ .play instanceId :: after →
        ((s.afterCalls r before).call r (.play instanceId)).1.isOk = true →
          (s.afterCalls r before).Plays r instanceId
            ((s.afterCalls r before).call r (.play instanceId)) := by
  intro s
  refine ⟨?_, fun before instanceId after _ hok => plays_of_isOk hok⟩
  have hledger : (s.afterCalls r cs).game.actions - (s.afterCalls r cs).granted =
      s.game.actions - s.granted - s.plays r cs :=
    balances_calls (sound_create st seed game) rfl cs hend
  have hnothing : s.granted = 0 := rfl
  omega

/-- A card that grants two actions is played with the only action there is, and not played again. -/
theorem actions_of_calls_of_rally :
    let r : Rules := { catalog := Starter.catalog }
    let rally : Card := { serial := 1, instanceId := "rally#1", cardId := "rally" }
    let s := (({} : Store).create none (some
      { actions := 1, zones := { hand := [rally] }, instancesMade := 1, copiesMade := 1 })).1
    let cs : List PlayerCall := [.play "rally#1", .play "rally#1"]
    (∀ done ∈ s.calls r cs, ∀ e, done.1 = .error e → e.isRefusal = true) ∧
      (s.afterCalls r cs).game.actions = 2 ∧
      s.Plays r "rally#1" (s.call r (.play "rally#1")) := by
  intro r rally s cs
  have hend : ∀ done ∈ s.calls r cs, ∀ e, done.1 = .error e → e.isRefusal = true := by
    have hrefusals : ∀ done ∈ s.calls r cs,
        (match done.1 with | .error e => e.isRefusal | .ok _ => true) = true := by decide +kernel
    intro done hdone e he
    have hrefusal := hrefusals done hdone
    rwa [he] at hrefusal
  obtain ⟨hledger, hplays⟩ := actions_of_calls r {} none _ cs hend
  have hgranted : (s.afterCalls r cs).granted = 2 := by decide +kernel
  have hone : s.plays r cs = 1 := by decide +kernel
  refine ⟨hend, ?_, hplays [] "rally#1" [.play "rally#1"] rfl (by decide +kernel)⟩
  refine hledger.trans ?_
  show 1 + (s.afterCalls r cs).granted - (s.plays r cs : Int) = 2
  rw [hgranted, hone]
  rfl

end Session

end Treasury
