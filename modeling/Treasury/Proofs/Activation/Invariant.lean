import Treasury.Proofs.Activation.Orders
import Treasury.Proofs.Activation.Quiet
import Treasury.Proofs.Activation.Targets

/-!
# Invariants of the table

A machine acts on its table by carrying effects out, by throwing dice and by making copies for ids
that its host names, and nothing else in it touches the table. So a statement about the table that
these three preserve holds after every call, whatever the groups, the answers and the standing
orders are, and whether or not the call fails.

Such a statement may also speak of the cards that the machine keeps (`Machine.held`): the source of
the activation, those of the queued effects and the candidates of the request.

* `Table.Invariant r P`: effects, dice and named cards preserve `P`, which speaks of some cards and
  a table.
* `Machine.Preserves P given`: the step from one machine to another preserves `P` of the cards that
  the machine keeps and of any others among which the given ones are.
* `Engine.start_preserves`, `Engine.resume_preserves`, `Engine.cancel_preserves` and
  `Engine.notify_preserves`: what the calls of the machine and its notifications preserve.
* `Machine.holds_after_command`, `Machine.holds_after_start`: what holds before a call holds after.
-/

namespace Treasury

/-- A statement about some cards and a table that everything an activation does preserves. -/
structure Table.Invariant (r : Rules) (P : List Card → Table → Prop) : Prop where
  /-- Fewer cards may be spoken of, and any that are on the table. -/
  fewer : ∀ {known few : List Card} {t : Table},
    (∀ c ∈ few, c ∈ known ∨ c ∈ t.game.zones.cards) → P known t → P few t
  /-- Throwing dice preserves it. -/
  rolled : ∀ {known : List Card} {t u : Table}, t.Rolled u → P known t → P known u
  /-- An effect preserves it if its targets are among the cards. -/
  execute : ∀ (a : Assignment) {known : List Card} {t : Table}, (∀ c ∈ a.targets, c ∈ known) →
    P known t → P known (exec (a.execute r) t).2
  /-- A card that a host means by an id may be spoken of as well. -/
  named : ∀ (id : String) {known : List Card} {t : Table}, P known t →
    P ((t.game.cardNamed id).1 :: known) { t with game := (t.game.cardNamed id).2 }

/-- The card that an entry of the queue came from. -/
def Pending.sources (p : Pending) : List Card := p.source.toList

/-- The candidates of a request, if there is one. -/
def TargetRequest.candidates? (q : Option TargetRequest) : List Card :=
  (q.map (·.candidates)).getD []

/-- The cards that the machine itself keeps. -/
def Machine.held (m : Machine) : List Card :=
  TargetRequest.candidates? m.request ++ m.source.toList ++
    (m.current.toList ++ m.queue).flatMap (·.sources)

/-- From one machine to another, a statement about the cards that the machine keeps and any others,
among which the given ones are, is not lost. -/
def Machine.Preserves (P : List Card → Table → Prop) (given : List Card) (m m' : Machine) : Prop :=
  ∀ known : List Card, (∀ c ∈ given, c ∈ known) → P (known ++ m.held) m.table →
    P (known ++ m'.held) m'.table

namespace Machine.Preserves

variable {P : List Card → Table → Prop} {given : List Card} {m m' : Machine}

instance : IsPreorder Machine (Machine.Preserves P given) where
  refl _ _ _ h := h
  trans _ _ _ h k known hgiven hm := k known hgiven (h known hgiven hm)

/-- More cards may be given. -/
theorem mono {more : List Card} (h : Machine.Preserves P given m m')
    (hsub : ∀ c ∈ given, c ∈ more) : Machine.Preserves P more m m' :=
  fun known hmore => h known fun c hc => hmore c (hsub c hc)

end Machine.Preserves

section

variable {r : Rules} {P : List Card → Table → Prop} {given : List Card} {m m' : Machine}

/-- Where the table stays and no card is kept that was neither kept, given nor on the table, nothing
is lost. -/
theorem Table.Invariant.preserves_of_fewer (hP : Table.Invariant r P) (htable : m'.table = m.table)
    (hheld : ∀ c ∈ m'.held, c ∈ m.held ∨ c ∈ given ∨ c ∈ m.table.game.zones.cards) :
    Machine.Preserves P given m m' := by
  intro known hgiven h
  rw [htable]
  refine hP.fewer (fun c hc => ?_) h
  rcases List.mem_append.mp hc with hc | hc
  · exact .inl (List.mem_append_left _ hc)
  · rcases hheld c hc with hc | hc | hc
    · exact .inl (List.mem_append_right _ hc)
    · exact .inl (List.mem_append_left _ (hgiven c hc))
    · exact .inr hc

/-- Cards that the machine keeps and cards on the table need not be given. -/
theorem Table.Invariant.preserves_of_around (hP : Table.Invariant r P) {more : List Card}
    (hmore : ∀ c ∈ more, c ∈ given ∨ c ∈ m.held ∨ c ∈ m.table.game.zones.cards)
    (h : Machine.Preserves P more m m') : Machine.Preserves P given m m' := by
  intro known hgiven hm
  -- They are spoken of from here on, and dropped again at the end.
  have hwider : P (more ++ known ++ m.held) m.table := by
    refine hP.fewer (fun c hc => ?_) hm
    have := hmore c
    have := hgiven c
    grind
  exact hP.fewer (fun c hc => .inl (by grind)) (h (more ++ known) (by grind) hwider)

/-- From a machine, an action loses nothing, and the cards of its answer may be spoken of. -/
def Yields (P : List Card → Table → Prop) {α : Type} (given : List Card) (cards : α → List Card)
    (x : Run α) (m : Machine) : Prop :=
  ∀ known : List Card, (∀ c ∈ given, c ∈ known) → P (known ++ m.held) m.table →
    match exec x m with
    | (.ok a, m') => P (cards a ++ known ++ m'.held) m'.table
    | (.error _, m') => P (known ++ m'.held) m'.table

/-- An action that looks at the machine first sees it as it is. -/
theorem Yields.get_bind {α : Type} {cards : α → List Card} {f : Machine → Run α}
    (h : Yields P given cards (f m) m) : Yields P given cards (get >>= f) m := h

/-- What loses nothing yields cards that are given or on the table when it ends. -/
theorem Table.Invariant.yields_of_preserves (hP : Table.Invariant r P) {α : Type}
    {cards : α → List Card} {x : Run α} (hx : Machine.Preserves P given m (exec x m).2)
    (hcards : ∀ a, (exec x m).1 = .ok a → ∀ c ∈ cards a, c ∈ given ∨
      c ∈ (exec x m).2.table.game.zones.cards) :
    Yields P given cards x m := by
  intro known hgiven hm
  have key := hx known hgiven hm
  revert key hcards
  rcases exec x m with ⟨e | a, m'⟩
  · exact fun _ key => key
  · intro hcards key
    refine hP.fewer (fun c hc => ?_) key
    have := hcards a rfl c
    have := hgiven c
    grind

/-- An action goes on with the cards of its first part. -/
theorem Table.Invariant.preserves_bind (hP : Table.Invariant r P) {α β : Type}
    {cards : α → List Card} {x : Run α} {f : α → Run β} (hx : Yields P given cards x m)
    (hf : ∀ a, Keeps (Machine.Preserves P (cards a ++ given)) (f a)) :
    Machine.Preserves P given m (exec (x >>= f) m).2 := by
  intro known hgiven hm
  have hfirst := hx known hgiven hm
  rw [exec_bind]
  revert hfirst
  rcases exec x m with ⟨e | a, m'⟩
  · exact id
  · intro hfirst
    have key := hf a m' (cards a ++ known) (fun c hc => ?_) hfirst
    · exact hP.fewer (fun c hc => .inl (by grind)) key
    · grind

end

namespace Engine

variable {r : Rules} {P : List Card → Table → Prop} {given : List Card} {tell : Tell}

section

variable (hP : Table.Invariant r P)

include hP

/-- A change that leaves the table, and that lets the machine keep none but given cards more. -/
theorem modify_preserves {f : Machine → Machine} (htable : ∀ m, (f m).table = m.table)
    (hheld : ∀ m, ∀ c ∈ (f m).held, c ∈ m.held ∨ c ∈ given) :
    Keeps (Machine.Preserves P given) (modify f : Run PUnit) := fun m =>
  hP.preserves_of_fewer (htable m) fun c hc => (hheld m c hc).imp_right .inl

/-- What only throws dice. -/
theorem play_preserves {α : Type} {x : Play α} (hx : Keeps Table.Rolled x) :
    Keeps (Machine.Preserves P given) (Run.play x) := by
  intro m known _ h
  rw [Run.exec_play]
  exact hP.rolled (hx m.table) h

theorem enqueue_preserves (source : Option Card) (e : Effect) (hgiven : ∀ c ∈ source, c ∈ given) :
    Keeps (Machine.Preserves P given) (enqueue r source e) := by
  unfold enqueue
  refine .bind .get fun m => .bind (play_preserves hP (Table.Rolled.magnitude _ r _ _)) fun n => ?_
  refine modify_preserves hP (fun _ => rfl) fun m c hc => ?_
  simp only [Machine.held, Pending.sources, List.mem_append, List.flatMap_append,
    List.flatMap_cons, List.flatMap_nil, List.append_nil, Option.mem_toList] at hc ⊢
  have := hgiven c
  grind

theorem expand_preserves (source : Option Card) (groups : List Group)
    (hgiven : ∀ c ∈ source, c ∈ given) :
    Keeps (Machine.Preserves P given) (expand r source groups) := by
  induction groups with
  | nil => exact .pure _
  | cons grp rest ih =>
    exact .bind .get fun m => .bind (.forM (fun e => enqueue_preserves hP source e hgiven) _)
      fun _ => ih

theorem authoritative_preserves (p : Pending) (targets : List Card) :
    Keeps (Machine.Preserves P given) (authoritative r p targets) :=
  .ite (.bind .get fun _ => play_preserves hP (Table.Rolled.magnitude _ r _ _)) (.pure _)

variable (ht : ∀ e, Keeps (Machine.Preserves P []) (tell e))

include ht

omit hP in
/-- Telling loses nothing, whatever cards are given. -/
theorem tell_preserves (e : Event) : Keeps (Machine.Preserves P given) (tell e) :=
  (ht e).mono fun _ _ h => h.mono fun _ hc => nomatch hc

theorem complete_preserves (p : Pending) (result : EffectResult) (magnitude : Int) :
    Keeps (Machine.Preserves P given) (complete tell p result magnitude) := by
  refine .bind (modify_preserves hP (fun _ => rfl) fun m c hc => .inl ?_)
    fun _ => tell_preserves ht _
  simp only [Machine.held, Option.toList_none, List.nil_append, List.mem_append,
    List.flatMap_append] at hc ⊢
  grind

theorem dispatch_preserves (p : Pending) (targets : List Card) (hgiven : ∀ c ∈ targets, c ∈ given) :
    Keeps (Machine.Preserves P given) (dispatch tell r p targets) := by
  refine .bind (modify_preserves hP (fun _ => rfl) fun _ _ => .inl) fun _ =>
    .bind (authoritative_preserves hP p targets) fun magnitude => .bind .get fun m =>
    .bind ?_ fun result => complete_preserves hP ht p result magnitude
  intro m known hknown h
  rw [Run.exec_attempt]
  exact hP.execute _ (fun c hc => List.mem_append_left _ (hknown c (hgiven c hc))) h

theorem suspend_preserves (q : TargetRequest) (hgiven : ∀ c ∈ q.candidates, c ∈ given) :
    Keeps (Machine.Preserves P given) (suspend tell q) := by
  refine .bind (modify_preserves hP (fun _ => rfl) fun m c hc => ?_) fun _ =>
    .bind (tell_preserves ht _) fun _ => .of_fixed fun _ => rfl
  have := hgiven c
  simp only [Machine.held, TargetRequest.candidates?, Option.map_some, Option.getD_some,
    List.mem_append] at hc ⊢
  grind

theorem finish_preserves : Keeps (Machine.Preserves P given) (finish tell) := by
  refine .bind (modify_preserves hP (fun _ => rfl) fun _ _ => .inl) fun _ => ?_
  intro m
  rw [exec_get_bind, exec_set_bind]
  -- Clearing the activation drops its source and its queue.
  have hclear : Machine.Preserves P given m
      { m with queue := [], results := {}, current := none, source := none } :=
    hP.preserves_of_fewer rfl fun c hc => .inl <| by
      simp only [Machine.held, Option.toList_none, List.append_nil, List.flatMap_nil,
        List.mem_append] at hc ⊢
      exact .inl (.inl hc)
  have hrest : Keeps (Machine.Preserves P given)
      (do tell (.completed m.source); return m.outcome) :=
    .bind (tell_preserves ht _) fun _ => .pure _
  exact IsTrans.trans _ _ _ hclear (hrest _)

/-- An effect in work asks for hand cards at most. -/
theorem work_yields (p : Pending) (m : Machine) (hsource : ∀ c ∈ p.source, c ∈ given) :
    Yields P given TargetRequest.candidates? (work tell r p) m := by
  -- An effect that is done asks for nothing.
  have hnone : ∀ {x : Run Unit} {m : Machine}, Machine.Preserves P given m (exec x m).2 →
      Yields P given TargetRequest.candidates? (do x; return none) m := by
    intro x m hx
    refine hP.yields_of_preserves (Keeps.bind_from hx fun _ => .pure _) fun a ha c hc => ?_
    rw [exec_bind] at ha
    rcases hdone : exec x m with ⟨e | ⟨⟩, m'⟩ <;> rw [hdone] at ha <;> cases ha
    cases hc
  unfold work
  split
  · have hhand : ∀ c ∈ p.effect.selectable r m.table.game, c ∈ m.table.game.zones.cards :=
      fun c hc => Zones.mem_cards_iff_exists.mpr ⟨.hand, Effect.mem_hand_of_mem_selectable hc⟩
    refine .get_bind ?_
    generalize p.effect.selectable r m.table.game = candidates at hhand ⊢
    dsimp only
    split
    · exact hnone (complete_preserves hP ht p _ _ m)
    · split
      · refine hnone (hP.preserves_of_around (fun c hc => .inr (.inr ?_))
          (dispatch_preserves hP ht p _ (fun c hc => hc) m))
        exact hhand c (List.mem_of_mem_take hc)
      · refine hP.yields_of_preserves (Keeps.pure _ m) fun a ha c hc => .inr (hhand c ?_)
        cases ha
        exact hc
  · -- Collected targets come of the source or of the table.
    have htargets : ∀ m, Yields P given id (Run.play (p.effect.autoTargets r p.source)) m := by
      intro m
      -- Collecting throws dice at most, so the cards are still on the table when it ends.
      have hrolled := Table.Rolled.autoTargets p.effect r p.source
      refine hP.yields_of_preserves (play_preserves hP hrolled m) fun cs hcs c hc => ?_
      rw [Run.exec_play] at hcs ⊢
      have hok : (exec (p.effect.autoTargets r p.source) m.table).1 = .ok cs := by
        revert hcs
        cases (exec (p.effect.autoTargets r p.source) m.table).1 <;> intro hcs <;> cases hcs
        rfl
      obtain ⟨dice, htable⟩ := hrolled m.table
      rw [htable]
      exact (Effect.mem_of_mem_autoTargets hok hc).imp_left (hsource c)
    rw [← bind_assoc, ← bind_assoc]
    refine hnone ?_
    rw [bind_assoc]
    refine Keeps.bind_from (modify_preserves hP (fun _ => rfl) (fun _ _ => .inl) m) fun _ m => ?_
    exact hP.preserves_bind (htargets m) fun targets =>
      dispatch_preserves hP ht p targets fun c hc => List.mem_append_left _ hc

theorem drain_preserves (activation : Nat) (queue : List Pending)
    (hgiven : ∀ c ∈ queue.flatMap (·.sources), c ∈ given) :
    Keeps (Machine.Preserves P given) (drain tell r activation queue) := by
  -- The queue that the loop goes through is not the one in the machine, which may be replaced in
  -- between, so the sources of its entries are given.
  induction queue with
  | nil => exact finish_preserves hP ht
  | cons p rest ih =>
    rw [List.flatMap_cons] at hgiven
    have hsource : ∀ c ∈ p.source, c ∈ given := fun c hc =>
      hgiven c (List.mem_append_left _ (Option.mem_toList.mpr hc))
    have hrest : ∀ c ∈ rest.flatMap (·.sources), c ∈ given := fun c hc =>
      hgiven c (List.mem_append_right _ hc)
    refine .bind (modify_preserves hP (fun _ => rfl) fun m c hc => ?_) fun _ m => ?_
    · simp only [Machine.held, Option.toList_some, List.singleton_append, List.flatMap_cons,
        List.mem_append] at hc ⊢
      have := hgiven c
      grind
    · refine hP.preserves_bind (work_yields hP ht p m hsource) fun asked => ?_
      cases asked with
      | some q => exact suspend_preserves hP ht q fun c hc => List.mem_append_left _ hc
      | none =>
        refine .bind .get fun m => .ite ((ih hrest).mono fun _ _ h => ?_) (.of_fixed fun _ => rfl)
        exact h

theorem proceed_preserves (activation : Nat) :
    Keeps (Machine.Preserves P given) (proceed tell r activation) := by
  intro m
  unfold proceed
  rw [exec_get_bind]
  split
  · -- The queue is among what the machine keeps.
    refine hP.preserves_of_around (fun c hc => .inr (.inl ?_))
      (drain_preserves hP ht activation m.queue (fun c hc => hc) m)
    simp only [Machine.held, List.flatMap_append, List.mem_append]
    exact .inr (.inr hc)
  · exact Std.Refl.refl (r := Machine.Preserves P given) m

/-- Starting an activation from a given card, or from none. -/
theorem start_preserves (groups : List Group) (source : Option Card)
    (hsource : ∀ c ∈ source, c ∈ given) :
    Keeps (Machine.Preserves P given) (start tell r groups source) := by
  unfold start
  intro m
  rw [exec_get_bind]
  split
  · exact Std.Refl.refl (r := Machine.Preserves P given) m
  · -- What is left of another activation is given up, so the machine holds fewer cards than before.
    have hset : Machine.Preserves P given m
        { m with activation := m.activation + 1, queue := [], results := {}, current := none,
                 request := none, source } := by
      refine hP.preserves_of_fewer rfl fun c hc => .inr (.inl (hsource c ?_))
      simpa [Machine.held, TargetRequest.candidates?] using hc
    have hrest : ∀ n : Nat, Keeps (Machine.Preserves P given) (do
        tell (.started source)
        if (← get).activation = n then
          modify fun m => { m with phase := .expanding }
          expand r source groups
          proceed tell r n
        else outcome) := fun n =>
      .bind (tell_preserves ht _) fun _ => .bind .get fun m => .ite
        (.bind (modify_preserves hP (fun _ => rfl) fun _ _ => .inl) fun _ =>
          .bind (expand_preserves hP source groups hsource) fun _ => proceed_preserves hP ht n)
        (.of_fixed fun _ => rfl)
    exact IsTrans.trans _ _ _ hset (hrest _ _)

omit hP ht in
theorem current_preserves : Keeps (Machine.Preserves P given) current := by
  refine .bind .get fun m => ?_
  split
  · exact .pure _
  · exact .throw _

/-- Answering a request, whether or not the answer is accepted. -/
theorem resume_preserves (ids : List String) :
    Keeps (Machine.Preserves P given) (resume tell r ids) := by
  intro m
  have hsame := Std.Refl.refl (r := Machine.Preserves P given) m
  unfold resume
  rw [exec_get_bind]
  split
  · exact hsame
  · next q hq =>
    rw [exec_ite]
    split
    · exact hsame
    · split
      · exact hsame
      · next targets hselected =>
        have hrest : Keeps (Machine.Preserves P targets) (do
            modify fun m => { m with request := none }
            let p ← current
            dispatch tell r p targets
            proceed tell r m.activation) := by
          refine .bind (modify_preserves hP (fun _ => rfl) fun m c hc => .inl ?_) fun _ =>
            .bind current_preserves fun p =>
              .bind (dispatch_preserves hP ht p targets fun c hc => hc) fun _ =>
                proceed_preserves hP ht m.activation
          simp only [Machine.held, TargetRequest.candidates?, Option.map_none, Option.getD_none,
            List.nil_append, List.mem_append] at hc ⊢
          grind
        -- The targets are candidates of the request, which the machine keeps until now.
        refine hP.preserves_of_around (fun c hc => .inr (.inl ?_)) (hrest m)
        simp only [Machine.held, TargetRequest.candidates?, hq, Option.map_some, Option.getD_some,
          List.mem_append]
        exact .inl (.inl (mem_of_selected hselected hc).1)

theorem cancel_preserves : Keeps (Machine.Preserves P given) (cancel tell r) := by
  refine .bind .get fun m => .ite (.of_fixed fun _ => rfl) ?_
  refine .bind (modify_preserves hP (fun _ => rfl) fun m c hc => .inl ?_)
    fun _ => .bind current_preserves fun p => .bind (complete_preserves hP ht p _ _) fun _ =>
      proceed_preserves hP ht _
  simp only [Machine.held, TargetRequest.candidates?, Option.map_none, Option.getD_none,
    List.nil_append, List.mem_append] at hc ⊢
  grind

theorem perform_preserves (c : Command) :
    Keeps (Machine.Preserves P given) (perform tell r c) := by
  cases c with
  | start groups source =>
    have hstart : ∀ card : Option Card, Keeps (Machine.Preserves P (card.toList ++ given))
        (Reply.outcome <$> start tell r groups card) := fun card =>
      .map (start_preserves hP ht groups card fun c hc =>
        List.mem_append_left _ (Option.mem_toList.mpr hc)) _
    cases source with
    | none =>
      rw [perform, pure_bind]
      exact hstart none
    | some id =>
      intro m
      rw [perform]
      refine hP.preserves_bind (fun known _ h => ?_) hstart
      have hnamed := hP.named id h
      rw [exec_map, Run.exec_play, Play.exec_makeFromGame]
      -- The card is named, so that nothing looks into it.
      generalize m.table.game.cardNamed id = named at hnamed ⊢
      exact hnamed
  | resume ids =>
    rw [perform]
    show Keeps _ (Reply.outcome <$> resume tell r ids)
    exact .map (resume_preserves hP ht ids) _
  | cancel =>
    rw [perform]
    show Keeps _ (Reply.outcome <$> cancel tell r)
    exact .map (cancel_preserves hP ht) _
  | preview => exact .of_fixed fun _ => rfl

end

/-- Notifications lose nothing, however deep they are nested: the calls that they make tell theirs
with one depth less. -/
theorem notify_preserves (hP : Table.Invariant r P) (depth : Nat) (e : Event) :
    Keeps (Machine.Preserves P given) (notify r depth e) := by
  have hneglects (given : List Card) : NeglectsObservers (Machine.Preserves P given) :=
    fun _ _ _ _ _ _ h => h
  induction depth generalizing e given with
  | zero => exact keeps_notify_zero (hneglects given) e
  | succ depth ih =>
    exact keeps_notify_succ (hneglects given) (perform_preserves hP fun e => ih e) e

end Engine

namespace Machine

variable {r : Rules} {P : List Card → Table → Prop} {given : List Card} {m : Machine}
  (hP : Table.Invariant r P)

include hP

/-- What the engine preserves under notifications that lose nothing, a call of the machine does. -/
theorem run_preserves {α : Type} {call : Engine.Tell → Run α}
    (hcall : ∀ tell : Engine.Tell, (∀ e, Keeps (Machine.Preserves P []) (tell e)) →
      Keeps (Machine.Preserves P given) (call tell)) :
    Machine.Preserves P given m (m.run r call).2 :=
  hcall (Engine.notify r m.depth) (fun e => Engine.notify_preserves hP m.depth e) m

/-- What holds of the table and the cards that a machine keeps holds after every command. -/
theorem holds_after_command (c : Command) (h : P m.held m.table) :
    P (m.command r c).2.held (m.command r c).2.table := by
  have hrun : Machine.Preserves P [] m (m.command r c).2 :=
    run_preserves hP fun tell ht => Engine.perform_preserves hP ht c
  exact hrun [] (fun _ hc => nomatch hc) h

/-- What holds of the table and the cards that a machine keeps holds after an activation is started
from one of these or from a card on the table. -/
theorem holds_after_start (groups : List Group) (source : Option Card)
    (hsource : ∀ c ∈ source, c ∈ m.held ∨ c ∈ m.table.game.zones.cards) (h : P m.held m.table) :
    P (m.run r fun tell => Engine.start tell r groups source).2.held
      (m.run r fun tell => Engine.start tell r groups source).2.table := by
  have hrun : Machine.Preserves P source.toList m
      (m.run r fun tell => Engine.start tell r groups source).2 :=
    run_preserves hP fun tell ht =>
      Engine.start_preserves hP ht groups source fun _ hc => Option.mem_toList.mpr hc
  have hnone : Machine.Preserves P [] m (m.run r fun tell => Engine.start tell r groups source).2 :=
    hP.preserves_of_around (fun c hc => .inr (hsource c (Option.mem_toList.mp hc))) hrun
  exact hnone [] (fun _ hc => nomatch hc) h

end Machine

end Treasury
