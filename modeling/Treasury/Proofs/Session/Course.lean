import Treasury.Proofs.Activation.History
import Treasury.Proofs.Activation.Invariant
import Treasury.Proofs.Execution.Household
import Treasury.Proofs.Session.Atomicity

/-!
# What a run is made of

Whatever a player and a host do in a session, and whatever observers do inside of it, the table
changes in few ways: effects are carried out one after another, and in between dice are thrown,
cards are named, actions are spent and cards are played. So a statement about runs is proved by
going through these.

* `SessionCall` and `Session.after` put the calls of a player beside those that a host makes of the
  machine itself; `Session.afterAll` is a run of them.
* `Table.Step` is one of these changes, and `Table.Course` is a run of them: a table comes of
  another by carrying out some effects in order.
* `Table.SessionInvariant`: what an activation preserves, and besides it spending actions and
  playing hand cards. `Session.preserves_after` is the step and `Session.preserves_afterAll` the
  run.
-/

namespace Treasury

/-! ## Calls and runs -/

/-- A call that a player makes of a session, or a host of the machine in it. -/
inductive SessionCall where
  /-- Plays a card. -/
  | play (instanceId : String)
  /-- Triggers an event. -/
  | trigger (eventId : String) (choiceId : Option String)
  /-- Picks targets. -/
  | select (ids : List String)
  /-- Passes the effect that waits over. -/
  | cancel
  /-- Starts any activation on the machine, from any card. -/
  | start (groups : List Group) (source : Option Card)
  /-- Gives a command to the machine. -/
  | command (c : Command)
  deriving Inhabited

namespace Session

/-- The session after a call of its machine. -/
def withRun (s : Session) {α : Type} (done : Except EngineError α × Machine) : Session :=
  { s with machine := done.2 }

/-- The session after a call, whether or not the call fails. -/
def after (r : Rules) (s : Session) : SessionCall → Session
  | .play instanceId => (exec (play r instanceId) s).2
  | .trigger eventId choiceId => (exec (trigger r eventId choiceId) s).2
  | .select ids => (exec (select r ids) s).2
  | .cancel => (exec (cancel r) s).2
  | .start groups source =>
    s.withRun (s.machine.run r fun tell => Engine.start tell r groups source)
  | .command c => s.withRun (s.machine.command r c)

/-- The session after calls one after another. -/
def afterAll (r : Rules) (s : Session) (calls : List SessionCall) : Session :=
  calls.foldl (after r) s

theorem afterAll_append (r : Rules) (s : Session) (calls more : List SessionCall) :
    s.afterAll r (calls ++ more) = (s.afterAll r calls).afterAll r more := List.foldl_append

end Session

/-! ## Courses -/

/-- What may happen to the table of a session. Carrying out an effect has it as its label, and
whatever else happens does not need an effect. -/
inductive Table.Step (r : Rules) : Table → Option Execution → Table → Prop
  /-- Dice are thrown. -/
  | rolled {u v : Table} (hroll : u.Rolled v) : Step r u none v
  /-- A host means a card by its id. -/
  | named (u : Table) (id : String) :
      Step r u none { u with game := (u.game.cardNamed id).2 }
  /-- An action is spent, if there is one. -/
  | spent (u : Table) : Step r u none (exec (Economy.consumeAction r) u).2
  /-- A hand card is played. -/
  | played {u : Table} {c : Card} (hc : c ∈ u.game.zones.hand) :
      Step r u none (exec (Deck.play r c) u).2
  /-- An effect is carried out. -/
  | carriedOut (x : Execution) : Step r x.before (some x) (x.after r)

/-- Some effects that are carried out in order lead from one table to another. -/
abbrev Table.Course (r : Rules) (t : Table) (xs : List Execution) (u : Table) : Prop :=
  Journey (Table.Step r) t xs u

/-! ## Between effects -/

namespace Table

variable {r : Rules}

/-- Spending an action does nothing to the piles. -/
theorem zones_consumeAction (u : Table) :
    (exec (Economy.consumeAction r) u).2.game.zones = u.game.zones := by
  have haside : u.Aside (exec (Economy.consumeAction r) u).2 := Aside.consumeAction u
  exact haside.zones

/-- A hand card that is played was on the table before. -/
theorem cards_play_subset {u : Table} {c : Card} (hc : c ∈ u.game.zones.hand) :
    (exec (Deck.play r c) u).2.game.zones.cards ⊆ u.game.zones.cards := by
  have hmem : c ∈ u.game.zones.cards := Zones.mem_cards_iff_exists.mpr ⟨.hand, hc⟩
  obtain ⟨f, hdone⟩ | ⟨hheld, hdone⟩ := Deck.exec_play_cases r c u <;> rw [hdone]
  · exact List.Subset.refl _
  · intro d hd
    have hmoves := Zones.Moves.handTo (List.mem_singleton_self c) hheld .play
    rcases hmoves.mem d hd with hd | hd
    · exact hd
    · rwa [List.mem_singleton.mp hd]

end Table

/-- What holds where a course starts holds all along, if effects keep it and if it is a matter of
the household and of there being no more cards than before: all else that happens changes nothing
about the one and adds none of the other. -/
theorem Table.Course.effect_induction {r : Rules} {t u : Table} {xs : List Execution}
    {motive : List Execution → Table → Prop} (hcourse : t.Course r xs u) (none : motive [] t)
    (between : ∀ {xs u v}, SameHousehold u v → v.game.zones.cards ⊆ u.game.zones.cards →
      motive xs u → motive xs v)
    (carriedOut : ∀ {xs} (x : Execution), motive xs x.before → motive (xs ++ [x]) (x.after r)) :
    motive xs u := by
  refine hcourse.label_induction none ?_ ?_
  · intro xs u v hstep ih
    cases hstep with
    | rolled hroll =>
      obtain ⟨dice, rfl⟩ := hroll
      exact between (u := u) ⟨rfl, rfl⟩ (List.Subset.refl _) ih
    | named _ id =>
      obtain ⟨n, hn⟩ := u.game.exists_snd_cardNamed id
      rw [hn]
      exact between (u := u) ⟨rfl, rfl⟩ (List.Subset.refl _) ih
    -- Spending an action and playing a card leave the household, and add no card.
    | spent =>
      refine between (SameHousehold.keeps_of_aside Aside.consumeAction u) ?_ ih
      rw [zones_consumeAction]
      exact List.Subset.refl _
    | @played _ c hc => exact between (SameHousehold.play c u) (cards_play_subset hc) ih
  · intro xs u x v hstep ih
    cases hstep
    exact carriedOut x ih

/-- If it takes a bad effect to lose what holds where a course starts, then along the course it
holds after every effect if and only if none is bad, and in that case also at the end. -/
theorem Table.Course.holds_iff {r : Rules} {t u : Table} {xs : List Execution} {P : Table → Prop}
    (hcourse : t.Course r xs u) (bad : Execution → Prop)
    (between : ∀ {u v}, SameHousehold u v → v.game.zones.cards ⊆ u.game.zones.cards → P u → P v)
    (hbad : ∀ x ∈ xs, P x.before → (P (x.after r) ↔ ¬ bad x)) (ht : P t) :
    ((∀ x ∈ xs, P (x.after r)) ↔ ∀ x ∈ xs, ¬ bad x) ∧ ((∀ x ∈ xs, ¬ bad x) → P u) := by
  revert hbad
  refine hcourse.effect_induction (motive := fun xs u =>
    (∀ x ∈ xs, P x.before → (P (x.after r) ↔ ¬ bad x)) →
      ((∀ x ∈ xs, P (x.after r)) ↔ ∀ x ∈ xs, ¬ bad x) ∧ ((∀ x ∈ xs, ¬ bad x) → P u)) ?_ ?_ ?_
  · exact fun _ => ⟨by simp, fun _ => ht⟩
  · intro xs u v hsame hcards ih hbad
    obtain ⟨hall, hu⟩ := ih hbad
    exact ⟨hall, fun hnone => between hsame hcards (hu hnone)⟩
  · intro xs x ih hbad
    simp only [List.forall_mem_append, List.forall_mem_singleton] at hbad ⊢
    obtain ⟨hall, hx⟩ := ih hbad.1
    -- Up to the last effect all is well, and then it depends on that one.
    have hlast : ((∀ y ∈ xs, P (y.after r)) ∧ P (x.after r)) ↔
        (∀ y ∈ xs, ¬ bad y) ∧ ¬ bad x := by
      rw [hall]
      exact and_congr_right fun hnone => hbad.2 (hx hnone)
    exact ⟨hlast, fun hnone => (hlast.mpr hnone).2⟩

/-- A statement about some cards and a table that everything in a session preserves: what an
activation does, and besides it spending actions and playing hand cards. -/
structure Table.SessionInvariant (r : Rules) (P : List Card → Table → Prop) : Prop
    extends Table.Invariant r P where
  /-- Spending an action preserves it, if there is one. -/
  spent : ∀ {known : List Card} {t : Table}, P known t →
    P known (exec (Economy.consumeAction r) t).2
  /-- Playing a hand card preserves it. -/
  played : ∀ {known : List Card} {t : Table} {c : Card}, c ∈ t.game.zones.hand → P known t →
    P known (exec (Deck.play r c) t).2

namespace Session

variable {r : Rules} {s : Session} {P : List Card → Table → Prop}

/-! ## Invariants of sessions -/

/-- From one session to another, a statement about the table and the cards that the machine keeps is
not lost. -/
def Preserves (P : List Card → Table → Prop) (s s' : Session) : Prop :=
  P s.machine.held s.machine.table → P s'.machine.held s'.machine.table

instance : IsPreorder Session (Preserves P) where
  refl _ h := h
  trans _ _ _ h k := k ∘ h

/-- What comes after an action on the table loses nothing if neither does. -/
theorem preserves_act_bind {α : Type} {x : Play α} {f : α → Call Outcome}
    (hx : P s.machine.held s.machine.table → P s.machine.held (exec x s.machine.table).2)
    (hf : ∀ a t, exec x s.machine.table = (.ok a, t) →
      Preserves P (s.withTable t) (exec (f a) (s.withTable t)).2) :
    Preserves P s (exec (act x >>= f) s).2 := by
  rw [exec_act_bind]
  rcases hdone : exec x s.machine.table with ⟨fault | a, t⟩ <;> rw [hdone] at hx
  · exact hx
  · exact IsTrans.trans (r := Preserves P) _ (s.withTable t) _ hx (hf a t hdone)

/-- A call of the machine loses nothing if the given cards may be spoken of. -/
theorem preserves_run (hP : Table.Invariant r P) {α : Type} {call : Engine.Tell → Run α}
    (given : List Card) (hcall : ∀ {tell : Engine.Tell},
      (∀ e, Keeps (Machine.Preserves P []) (tell e)) →
        Keeps (Machine.Preserves P given) (call tell))
    (hgiven : P s.machine.held s.machine.table → P (given ++ s.machine.held) s.machine.table) :
    Preserves P s (s.withRun (s.machine.run r call)) := by
  intro h
  have hrun := Machine.run_preserves (m := s.machine) hP fun tell ht => hcall ht
  have hdone := hrun given (fun _ hc => hc) (hgiven h)
  exact hP.fewer (fun _ hc => .inl (List.mem_append_right given hc)) hdone

theorem preserves_engine (hP : Table.Invariant r P) {call : Engine.Tell → Run Outcome}
    (given : List Card) (hcall : ∀ {tell : Engine.Tell},
      (∀ e, Keeps (Machine.Preserves P []) (tell e)) →
        Keeps (Machine.Preserves P given) (call tell))
    (hgiven : P s.machine.held s.machine.table → P (given ++ s.machine.held) s.machine.table) :
    Preserves P s (exec (engine r call) s).2 := by
  have hrun := preserves_run hP given hcall hgiven
  rw [exec_engine]
  rcases hdone : s.machine.run r call with ⟨e | o, m⟩ <;> rw [hdone] at hrun
  · exact hrun
  · exact hrun

/-- A card that was played lies on the table. -/
theorem mem_cards_of_play {c : Card} {t u : Table} {a : Unit}
    (h : exec (Deck.play r c) t = (.ok a, u)) : c ∈ u.game.zones.cards := by
  obtain ⟨f, hdone⟩ | ⟨-, hdone⟩ := Deck.exec_play_cases r c t <;> cases hdone.symm.trans h
  exact Zones.mem_cards_iff_exists.mpr ⟨.play, List.mem_append_right _ (List.mem_singleton_self c)⟩

theorem preserves_play (hP : Table.SessionInvariant r P) (instanceId : String) :
    Keeps (Preserves P) (play r instanceId) := by
  refine Keeps.bind keeps_ready fun _ s => ?_
  rw [exec_get_bind]
  rcases hplayable : s.playable r instanceId with e | ⟨c, d⟩
  · exact Std.Refl.refl (r := Preserves P) s
  · -- The card is in hand, and the action that is spent for it leaves it there.
    have hhand : c ∈ s.game.zones.hand :=
      List.mem_of_find?_eq_some (named?_of_playable hplayable).1
    refine preserves_act_bind hP.spent fun spent t hspent => ?_
    rw [exec_ite]
    split
    · have hstill : c ∈ t.game.zones.hand := by
        have hsame := s.machine.table.zones_consumeAction (r := r)
        rw [hspent] at hsame
        exact hsame ▸ hhand
      refine preserves_act_bind (hP.played hstill) fun _ u hplayed => ?_
      refine preserves_engine hP.toInvariant [c] (fun ht => Engine.start_preserves
        hP.toInvariant ht d.effects (some c) fun _ hc =>
          List.mem_singleton.mpr (Option.mem_some_iff.mp hc).symm) (hP.fewer fun d hd => ?_)
      rcases List.mem_cons.mp hd with rfl | hd
      · exact .inr (mem_cards_of_play hplayed)
      · exact .inl hd
    · exact Std.Refl.refl (r := Preserves P) _

theorem preserves_trigger (hP : Table.Invariant r P) (eventId : String)
    (choiceId : Option String) : Keeps (Preserves P) (trigger r eventId choiceId) :=
  keeps_trigger (fun groups _ => preserves_engine hP []
    (fun ht => Engine.start_preserves hP ht groups none fun _ hc => nomatch hc) fun h => h)
    eventId choiceId

/-- Whatever the call, it loses nothing if a card from which an activation is started may be spoken
of. -/
theorem preserves_after (hP : Table.SessionInvariant r P) (s : Session) (c : SessionCall)
    (hsource : ∀ groups d, c = .start groups (some d) →
      ∀ {known : List Card} {t : Table}, P known t → P (d :: known) t) :
    Preserves P s (s.after r c) := by
  have hinv := hP.toInvariant
  cases c with
  | play instanceId => exact preserves_play hP instanceId s
  | trigger eventId choiceId => exact preserves_trigger hinv eventId choiceId s
  | select ids =>
    exact preserves_engine hinv [] (fun ht => Engine.resume_preserves hinv ht ids)
      fun h => h
  | cancel =>
    exact preserves_engine hinv [] (fun ht => Engine.cancel_preserves hinv ht)
      fun h => h
  | start groups source =>
    refine preserves_run hinv source.toList (fun ht => Engine.start_preserves hinv ht
      groups source fun _ hc => Option.mem_toList.mpr hc) ?_
    -- A host may start from a card that is nowhere on the table.
    cases source with
    | none => exact fun h => h
    | some d => exact hsource groups d rfl
  | command c =>
    exact preserves_run hinv [] (fun ht => Engine.perform_preserves hinv ht c)
      fun h => h

/-- Whatever the calls, they lose nothing if the cards from which activations are started may be
spoken of. -/
theorem preserves_afterAll (hP : Table.SessionInvariant r P) (s : Session)
    (calls : List SessionCall) (hsource : ∀ groups d, .start groups (some d) ∈ calls →
      ∀ {known : List Card} {t : Table}, P known t → P (d :: known) t) :
    Preserves P s (s.afterAll r calls) := by
  induction calls generalizing s with
  | nil => exact Std.Refl.refl (r := Preserves P) s
  | cons c rest ih =>
    have hfirst : Preserves P s (s.after r c) :=
      preserves_after hP s c fun groups d hc => hsource groups d (hc ▸ List.mem_cons_self)
    have hrest := ih (s.after r c) fun groups d hc => hsource groups d (List.mem_cons_of_mem _ hc)
    exact IsTrans.trans (r := Preserves P) _ _ _ hfirst hrest

end Session

end Treasury
