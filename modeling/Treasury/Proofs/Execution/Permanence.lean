import Treasury.Proofs.Activation.Targets
import Treasury.Proofs.Activation.Work
import Treasury.Proofs.Execution.Inflow
import Treasury.Starter.Cards

/-!
# Permanent and temporary cards

How many permanent cards are on the table, and which effects make them more. Adding cards to the
deck is meant to; exchanging a card for a better one does so exactly if the card that gives way is
temporary, since the new one is permanent. Apart from that only a mix-up can: where several cards
have one id, a permanent card may be put down for a temporary one that is taken out of the hand.

* `Assignment.permanents_upgraded`: permanent upgrades make no permanent cards fewer, and make them
  more if a temporary card is among those that give way.
* `Effect.Misplaces`: moving its targets, an effect puts more permanent cards down than it takes out
  of the hand. `Effect.not_misplaces_of_distinct` excludes it where ids are unique.
* `Engine.dispatch_permanents_iff`: the number of permanent cards after an effect.
* `Effect.perpetuates_iff_of_distinct`: which targets let a temporary card give way to a permanent
  one, where ids are unique.
-/

namespace Treasury

/-- Whether a card stays beyond the turn. -/
def Card.permanent (c : Card) : Bool := !c.temporary

/-- The number of permanent cards on the table. -/
def Table.permanents (t : Table) : Nat := t.game.zones.cards.countP (·.permanent)

/-- A pile has a temporary card that counts as a given one. -/
def Pile.HoldsTemporary (p : Pile) (c : Card) : Prop :=
  ∃ d ∈ p, d.same c = true ∧ d.temporary = true

theorem Pile.HoldsTemporary.holds {p : Pile} {c : Card} (h : p.HoldsTemporary c) :
    p.holds c = true := by
  obtain ⟨d, hd, hsame, -⟩ := h
  exact List.any_eq_true.mpr ⟨d, hd, hsame⟩

/-! ## When permanent cards become more -/

/-- More permanent cards are put down for cards of a hand than are taken out of it. -/
def Pile.MixesUp (hand : Pile) (cs : List Card) : Prop :=
  (hand.taken cs).countP (·.2.permanent) < (hand.taken cs).countP (·.1.permanent)

/-- Moving its targets, an effect puts more permanent cards down than it takes out of the hand. -/
def Effect.Misplaces (e : Effect) (r : Rules) (targets : List Card) (g : GameState) : Prop :=
  (e.kind = .known .moveToDeckBottom ∧ Service.moveToBottom ∉ r.outOfOrder ∧
      g.zones.hand.MixesUp targets) ∨
    (e.kind = .known .settleCard ∧ Service.settle ∉ r.outOfOrder ∧
      g.zones.hand.MixesUp (targets.filter (Deck.isTreasure r)))

/-- Carried out on some targets, an effect lets a temporary card give way to a permanent one. -/
def Effect.Perpetuates (e : Effect) (r : Rules) (targets : List Card) (g : GameState) : Prop :=
  ∃ old cardId, e.Exchanges r targets g old cardId ∧ old.temporary = true

/-- A permanent upgrade lets a temporary card give way at the turn of one of its targets. -/
theorem Effect.perpetuates_iff_upgrades {e : Effect} {r : Rules} {targets : List Card}
    {g : GameState} (hkind : e.kind = .known .permanentUpgrade) :
    e.Perpetuates r targets g ↔
      ∃ old grade, Assignment.Upgrades r targets g old grade ∧ old.temporary = true := by
  unfold Perpetuates
  simp only [exchanges_of_permanentUpgrade hkind]
  constructor
  · rintro ⟨old, -, ⟨grade, h, -⟩, htemporary⟩
    exact ⟨old, grade, h, htemporary⟩
  · rintro ⟨old, grade, h, htemporary⟩
    exact ⟨old, grade.cardId, ⟨grade, h, rfl⟩, htemporary⟩

/-! ## Each kind of effect -/

section

variable {a : Assignment} {r : Rules} {t u : Table}

/-- Among fewer cards, no more are permanent. -/
theorem Table.Sheds.permanents_le (h : t.Sheds u) : u.permanents ≤ t.permanents :=
  h.cards.countP_le _

/-- Temporary copies are no permanent cards more. -/
theorem Table.Gains.permanents_eq {cardId : String} (h : Table.Gains cardId true t u) :
    u.permanents = t.permanents := by
  obtain ⟨made, hcards, hmade⟩ := h
  have hnone : made.countP (·.permanent) = 0 :=
    List.countP_eq_zero.mpr fun c hc => by simp [Card.permanent, (hmade c hc).2]
  rw [Table.permanents, hcards.countP_eq, List.countP_append, hnone, Nat.zero_add]
  rfl

/-- Permanent copies are as many permanent cards more as there are cards more. -/
theorem Table.Gains.permanents_add {cardId : String} (h : Table.Gains cardId false t u) :
    u.permanents + t.headcount = t.permanents + u.headcount := by
  obtain ⟨made, hcards, hmade⟩ := h
  have hall : made.countP (·.permanent) = made.length :=
    List.countP_eq_length.mpr fun c hc => by simp [Card.permanent, (hmade c hc).2]
  rw [Table.permanents, Table.headcount, Table.headcount, hcards.countP_eq, hcards.length_eq,
    List.countP_append, List.length_append, hall, Table.permanents]
  omega

namespace Zones

/-- Putting cards down makes the permanent ones more if hand cards are mixed up. -/
theorem permanents_foldl_put_le_iff {zone : Zone} (hzone : zone ≠ .hand) (cs : List Card)
    (z : Zones) :
    (cs.foldl (put zone) z).cards.countP (·.permanent) ≤ z.cards.countP (·.permanent) ↔
      ¬ z.hand.MixesUp cs := by
  have hcount := countP_foldl_put hzone (·.permanent) cs z
  unfold Pile.MixesUp
  omega

end Zones

namespace Assignment

theorem permanents_moveToDeckBottom (hkind : a.effect.kind = .known .moveToDeckBottom) :
    (exec (a.moveToDeckBottom r) t).2.permanents ≤ t.permanents ↔
      ¬ a.effect.Misplaces r a.targets t.game := by
  have hmisplaces : a.effect.Misplaces r a.targets t.game ↔
      Service.moveToBottom ∉ r.outOfOrder ∧ t.game.zones.hand.MixesUp a.targets := by
    simp [Effect.Misplaces, hkind]
  rw [hmisplaces, Table.permanents, zones_moveToDeckBottom]
  split
  · next hout => exact iff_of_true le_rfl fun h => h.1 hout
  · next hin =>
    rw [and_iff_right hin]
    exact Zones.permanents_foldl_put_le_iff (by decide) a.targets t.game.zones

theorem permanents_settle (hkind : a.effect.kind = .known .settleCard) :
    (exec (a.settle r) t).2.permanents ≤ t.permanents ↔
      ¬ a.effect.Misplaces r a.targets t.game := by
  have hmisplaces : a.effect.Misplaces r a.targets t.game ↔
      Service.settle ∉ r.outOfOrder ∧
        t.game.zones.hand.MixesUp (a.targets.filter (Deck.isTreasure r)) := by
    simp [Effect.Misplaces, hkind]
  rw [hmisplaces, Table.permanents, zones_settle]
  split
  · next hout => exact iff_of_true le_rfl fun h => h.1 hout
  · next hin =>
    rw [and_iff_right hin]
    exact Zones.permanents_foldl_put_le_iff (by decide) _ t.game.zones

/-- When a card gives way, there are as many permanent cards as before, or one more if the card was
temporary. -/
theorem permanents_exchanging {g : GameState} (zone : Zone) {c old : Card} (cardId : String)
    (h : (g.zones.pile zone).counterpart? c = some old) :
    (g.exchanging zone c cardId).zones.cards.countP (·.permanent) =
      g.zones.cards.countP (·.permanent) + if old.temporary then 1 else 0 := by
  have hcount := Zones.countP_update_exchanged h (g.newCard cardId false c.owner).1 (·.permanent)
  change (g.zones.update zone (·.exchanged c (g.newCard cardId false c.owner).1)).cards.countP _ = _
  rw [if_pos (show Card.permanent (g.newCard cardId false c.owner).1 = true from rfl)] at hcount
  cases htemporary : old.temporary <;> simp [Card.permanent, htemporary] at hcount ⊢ <;> omega

/-- Permanent upgrades make no permanent cards fewer, and make them more if a temporary card is
among those that give way. -/
theorem permanents_upgraded (r : Rules) (cs : List Card) (g : GameState) :
    g.zones.cards.countP (·.permanent) ≤ (upgraded r cs g).2.zones.cards.countP (·.permanent) ∧
      ((upgraded r cs g).2.zones.cards.countP (·.permanent) ≤ g.zones.cards.countP (·.permanent) ↔
        ¬ ∃ old grade, Upgrades r cs g old grade ∧ old.temporary = true) := by
  induction cs generalizing g with
  | nil =>
    refine ⟨le_rfl, iff_of_true le_rfl ?_⟩
    rintro ⟨old, grade, ⟨before, c, after, hsplit, -⟩, -⟩
    simp at hsplit
  | cons c rest ih =>
    rw [upgraded_cons]
    simp only [upgrades_cons_iff]
    obtain ⟨hdone, hnot⟩ | ⟨grade, old, hgrade, hold, hdone⟩ := upgraded_singleton_cases r c g <;>
      rw [hdone]
    · have hnone : ∀ old grade, ¬ (r.upgrade? c = some grade ∧
          g.zones.hand.counterpart? c = some old) := fun old grade h => hnot ⟨grade, old, h⟩
      simpa only [hnone, false_or] using ih g
    · -- The first turn settles it if a temporary card gives way there, and else does nothing to it.
      obtain ⟨hle, hiff⟩ := ih (g.exchanging .hand c grade.cardId)
      rw [permanents_exchanging .hand grade.cardId hold] at hle hiff
      dsimp only
      refine ⟨by omega, ?_⟩
      cases htemporary : old.temporary with
      | true =>
        rw [htemporary, if_pos rfl] at hle
        exact iff_of_false (by omega)
          (not_not_intro ⟨old, grade, .inl ⟨hgrade, hold⟩, htemporary⟩)
      | false =>
        rw [htemporary, if_neg Bool.false_ne_true, Nat.add_zero] at hiff
        rw [hiff]
        refine not_congr (exists₂_congr fun old' grade' => and_congr_left fun htemporary' => ?_)
        refine (or_iff_right ?_).symm
        rintro ⟨-, hold'⟩
        obtain rfl : old = old' := Option.some.inj (hold.symm.trans hold')
        rw [htemporary] at htemporary'
        cases htemporary'

theorem permanents_upgradeCardInDeck (hkind : a.effect.kind = .known .upgradeCardInDeck) :
    (exec a.upgradeCardInDeck t).2.permanents ≤ t.permanents ↔
      ¬ a.effect.Perpetuates r a.targets t.game := by
  unfold Effect.Perpetuates
  simp only [Effect.exchanges_of_upgradeCardInDeck hkind]
  obtain ⟨hsame, hnone⟩ | ⟨zone, c, old, cardId, hold, hdone, hexchange⟩ :=
    upgradeCardInDeck_cases a t
  · rw [hsame]
    exact iff_of_true le_rfl fun ⟨old, cardId, h, _⟩ => hnone old cardId h
  · -- One card gives way, so it is the one in question.
    simp only [hexchange]
    have hcount := permanents_exchanging zone cardId hold
    rw [hdone]
    change (t.game.exchanging zone c cardId).zones.cards.countP (·.permanent) ≤
      t.game.zones.cards.countP (·.permanent) ↔ _
    rw [hcount]
    cases htemporary : old.temporary <;> simp [htemporary]

/-- Copies that are added to the deck are permanent cards, and the result says how many. -/
theorem permanents_addCardToDeck (hkind : a.effect.kind = .known .addCardToDeck) :
    ((exec (a.execute r) t).2.permanents : Int) =
      t.permanents + ((exec (a.execute r) t).1.toOption.getD a.failed).count := by
  have hexecute : a.execute r = a.addCardToDeck r := execute_of_known hkind r
  have htally := execute_tallies a r (by rw [hkind]; decide) t
  have hgain : (((exec (a.execute r) t).1.toOption.getD a.failed)).gain =
      ((exec (a.execute r) t).1.toOption.getD a.failed).count :=
    (gain_of_kind ((kind_of_result a r t).trans hkind)).trans (Int.one_mul _)
  rw [hgain] at htally
  -- There are as many permanent cards more as there are cards.
  have hmore : (exec (a.execute r) t).2.permanents + t.headcount =
      t.permanents + (exec (a.execute r) t).2.headcount := by
    rw [hexecute]
    obtain hsame | ⟨-, hgains⟩ := Table.Gains.addCardToDeck (r := r) a t
    · rw [hsame]
    · exact hgains.permanents_add
  omega

/-- Apart from adding cards to the deck, an effect makes the permanent cards no more, unless it lets
a temporary card give way to a permanent one or mixes cards up. -/
theorem permanents_execute (hkind : a.effect.kind ≠ .known .addCardToDeck) :
    (exec (a.execute r) t).2.permanents ≤ t.permanents ↔
      ¬ (a.effect.Perpetuates r a.targets t.game ∨ a.effect.Misplaces r a.targets t.game) := by
  rcases hword : a.effect.kind with kind | word
  · have hexecute : a.execute r = a.executeKind r kind := execute_of_known hword r
    rw [hexecute]
    -- Only two kinds exchange cards, and only two others move their targets.
    have hperpetuates : kind ≠ .permanentUpgrade → kind ≠ .upgradeCardInDeck →
        ¬ a.effect.Perpetuates r a.targets t.game := by
      rintro hgrade hdeck ⟨old, cardId, hexchanges, -⟩
      refine Effect.not_exchanges ?_ ?_ hexchanges
      · rw [hword]
        exact fun h => hgrade (Word.known.inj h)
      · rw [hword]
        exact fun h => hdeck (Word.known.inj h)
    have hmisplaces : kind ≠ .moveToDeckBottom → kind ≠ .settleCard →
        ¬ a.effect.Misplaces r a.targets t.game := by
      rintro hmove hsettle (⟨h, -⟩ | ⟨h, -⟩) <;> rw [hword] at h
      · exact hmove (Word.known.inj h)
      · exact hsettle (Word.known.inj h)
    cases kind
    case addCardToDeck => exact absurd hword hkind
    case permanentUpgrade =>
      rw [or_iff_left (hmisplaces (by decide) (by decide))]
      rw [Effect.perpetuates_iff_upgrades hword]
      exact (permanents_upgraded r a.targets t.game).2
    case upgradeCardInDeck =>
      rw [or_iff_left (hmisplaces (by decide) (by decide))]
      exact permanents_upgradeCardInDeck hword
    case moveToDeckBottom =>
      rw [or_iff_right (hperpetuates (by decide) (by decide))]
      exact permanents_moveToDeckBottom hword
    case settleCard =>
      rw [or_iff_right (hperpetuates (by decide) (by decide))]
      exact permanents_settle hword
    all_goals
      refine iff_of_true ?_ (not_or.mpr ⟨hperpetuates (by decide) (by decide),
        hmisplaces (by decide) (by decide)⟩)
    case createTempTreasure =>
      obtain hsame | ⟨cardId, -, hgains⟩ := Table.Gains.createTreasure (r := r) a t
      · exact (congrArg Table.permanents hsame).le
      · exact hgains.permanents_eq.le
    -- All others bring in nothing.
    all_goals exact (Table.Sheds.executeKind (r := r) a rfl t).permanents_le
  · rw [execute_of_unknown hword]
    refine iff_of_true le_rfl ?_
    rintro (⟨old, cardId, (⟨h, -⟩ | ⟨h, -⟩), -⟩ | ⟨h, -⟩ | ⟨h, -⟩) <;> rw [hword] at h <;> cases h

end Assignment

end

/-! ## Where ids are unique -/

section

variable {e : Effect} {r : Rules} {targets : List Card} {g : GameState}

/-- Where ids are unique, cards of the table are put down for themselves. -/
theorem Pile.not_mixesUp_of_distinct (hg : g.Distinct) {cs : List Card}
    (hcs : ∀ c ∈ cs, c ∈ g.zones.cards) : ¬ g.zones.hand.MixesUp cs := by
  have hself : ∀ x ∈ g.zones.hand.taken cs, x.2.permanent = true ↔ x.1.permanent = true := by
    rintro ⟨c, d⟩ hx
    obtain ⟨hc, hd, hsame⟩ := of_mem_taken hx
    rw [hg.eq_of_same (hcs c hc) (Zones.mem_cards_iff_exists.mpr ⟨.hand, hd⟩) hsame]
  unfold MixesUp
  rw [List.countP_congr hself]
  exact Nat.lt_irrefl _

theorem Effect.not_misplaces_of_distinct (hg : g.Distinct)
    (htargets : ∀ c ∈ targets, c ∈ g.zones.cards) : ¬ e.Misplaces r targets g := by
  rintro (⟨-, -, hmixes⟩ | ⟨-, -, hmixes⟩)
  · exact Pile.not_mixesUp_of_distinct hg htargets hmixes
  · exact Pile.not_mixesUp_of_distinct hg (fun c hc => htargets c (List.mem_filter.mp hc).1) hmixes

/-- Where ids are unique, the only hand card that counts as a given one is its counterpart. -/
theorem GameState.Distinct.holdsTemporary_iff {c old : Card} (hg : g.Distinct)
    (hold : g.zones.hand.counterpart? c = some old) :
    g.zones.hand.HoldsTemporary c ↔ old.temporary = true := by
  have hmem := Pile.mem_of_counterpart? hold
  have hcounts := Pile.same_of_counterpart? hold
  constructor
  · rintro ⟨d, hd, hsame, htemporary⟩
    have hid : d.same old = true :=
      decide_eq_true ((of_decide_eq_true hsame).trans (of_decide_eq_true hcounts).symm)
    rwa [← hg.eq_of_same (Zones.mem_cards_iff_exists.mpr ⟨.hand, hmem⟩)
      (Zones.mem_cards_iff_exists.mpr ⟨.hand, hd⟩) hid]
  · intro htemporary
    exact ⟨old, hmem, hcounts, htemporary⟩

/-- When a permanent card gives way, the hand has the same temporary cards. -/
theorem GameState.holdsTemporary_exchanging_iff {c old : Card}
    (hold : g.zones.hand.counterpart? c = some old) (hpermanent : old.temporary = false)
    (cardId : String) (d : Card) :
    (g.exchanging .hand c cardId).zones.hand.HoldsTemporary d ↔
      g.zones.hand.HoldsTemporary d := by
  refine exists_congr fun x => and_congr_left fun h => ?_
  have htemporary := h.2
  -- Neither the card that goes nor the one that comes is temporary.
  have hold' : x ≠ old := by
    rintro rfl
    rw [hpermanent] at htemporary
    cases htemporary
  have hnew : x ≠ (g.newCard cardId false c.owner).1 := by
    rintro rfl
    cases htemporary
  obtain ⟨before, after, hsplit, -, hexchanged⟩ := Pile.exists_split_of_counterpart? hold
  change x ∈ g.zones.hand.exchanged c _ ↔ _
  rw [hexchanged, hsplit, List.mem_append, List.mem_append, List.mem_cons, List.mem_cons,
    or_iff_right hnew, or_iff_right hold']

/-- Where ids are unique, permanent upgrades exchange a temporary card if one is in hand that counts
as a target and can be upgraded, whatever is upgraded before it. -/
theorem Assignment.exists_upgrades_temporary_iff {cs : List Card} (hg : g.Distinct) :
    (∃ old grade, Upgrades r cs g old grade ∧ old.temporary = true) ↔
      ∃ c ∈ cs, (r.upgrade? c).isSome = true ∧ g.zones.hand.HoldsTemporary c := by
  induction cs generalizing g with
  | nil =>
    refine iff_of_false ?_ (by simp)
    rintro ⟨old, grade, ⟨before, c, after, hsplit, -⟩, -⟩
    simp at hsplit
  | cons c rest ih =>
    have hfirst : (∃ old grade, (r.upgrade? c = some grade ∧
          g.zones.hand.counterpart? c = some old) ∧ old.temporary = true) ↔
        (r.upgrade? c).isSome = true ∧ g.zones.hand.HoldsTemporary c := by
      constructor
      · rintro ⟨old, grade, ⟨hgrade, hold⟩, htemporary⟩
        exact ⟨Option.isSome_iff_exists.mpr ⟨grade, hgrade⟩,
          (hg.holdsTemporary_iff hold).mpr htemporary⟩
      · rintro ⟨hgrade, hholds⟩
        obtain ⟨grade, old, hgrade, hold⟩ := upgradable_iff.mp ⟨hgrade, hholds.holds⟩
        exact ⟨old, grade, ⟨hgrade, hold⟩, (hg.holdsTemporary_iff hold).mp hholds⟩
    -- What is left is the turns of the rest, in the game after the first.
    simp only [upgrades_cons_iff, List.exists_mem_cons_iff, or_and_right, exists_or]
    obtain ⟨hdone, hnot⟩ | ⟨grade, old, hgrade, hold, hdone⟩ := upgraded_singleton_cases r c g <;>
      rw [hdone]
    · exact or_congr hfirst (ih hg)
    · cases htemporary : old.temporary with
      | true =>
        have hnow := hfirst.mp ⟨old, grade, ⟨hgrade, hold⟩, htemporary⟩
        exact iff_of_true (.inl (hfirst.mpr hnow)) (.inl hnow)
      | false =>
        -- The temporary cards in hand are the same at the turns of the rest.
        have hrest := ih ((GameState.Evolves.exchanging [] g .hand c grade.cardId).distinct hg)
        simp only [GameState.holdsTemporary_exchanging_iff hold htemporary] at hrest
        exact or_congr hfirst hrest

/-- Where ids are unique, a permanent upgrade lets a temporary card give way exactly if one is among
its targets, in hand and of a grade that can be upgraded. -/
theorem Effect.perpetuates_iff_of_distinct (hkind : e.kind = .known .permanentUpgrade)
    (hg : g.Distinct) (htargets : ∀ c ∈ targets, c ∈ g.zones.cards) :
    e.Perpetuates r targets g ↔
      ∃ c ∈ targets, c ∈ g.zones.hand ∧ c.temporary = true ∧ (r.upgrade? c).isSome = true := by
  rw [Effect.perpetuates_iff_upgrades hkind, Assignment.exists_upgrades_temporary_iff hg]
  refine exists_congr fun c => and_congr_right fun hc => ⟨?_, ?_⟩
  · rintro ⟨hgrade, d, hd, hsame, htemporary⟩
    have hself : d = c :=
      hg.eq_of_same (htargets c hc) (Zones.mem_cards_iff_exists.mpr ⟨.hand, hd⟩) hsame
    exact ⟨hself ▸ hd, hself ▸ htemporary, hgrade⟩
  · rintro ⟨hhand, htemporary, hgrade⟩
    exact ⟨hgrade, c, hhand, decide_eq_true rfl, htemporary⟩

end

/-! ## What the engine makes of it -/

/-- Adding cards to the deck makes the permanent cards more by as many as the result says. All other
effects, on whatever targets, make them no more if and only if they let no temporary card give way
to a permanent one and put no permanent cards down for temporary ones that count as them. -/
theorem Engine.dispatch_permanents_iff (tell : Tell) (r : Rules) (m : Machine) (p : Pending)
    (targets : List Card) :
    match exec (p.carriedOut r targets m.results) m.table with
    | (.error f, t) =>
      exec (dispatch tell r p targets) m =
          (.error (.fault f), { m with phase := .dispatching, table := t }) ∧
        t.permanents = m.table.permanents
    | (.ok (magnitude, result), t) =>
      exec (dispatch tell r p targets) m =
          exec (tell (.executed p.effect.kind magnitude result))
            { m with phase := .dispatching, table := t, results := m.results.push result,
                     current := none } ∧
        if p.effect.kind = .known .addCardToDeck then
          (t.permanents : Int) = m.table.permanents + result.count
        else
          t.permanents ≤ m.table.permanents ↔
            ¬ (p.effect.Perpetuates r targets m.table.game ∨
              p.effect.Misplaces r targets m.table.game) := by
  rw [exec_dispatch, Pending.exec_carriedOut]
  -- Working out the magnitude throws the dice at most.
  obtain ⟨dice, hrolled⟩ := p.keeps_magnitude r targets m.results m.table
  rcases hmagnitude : exec (p.magnitude r targets m.results) m.table with ⟨f | magnitude, u⟩ <;>
    rw [hmagnitude] at hrolled <;> obtain rfl : u = _ := hrolled
  · exact ⟨rfl, rfl⟩
  · refine ⟨rfl, ?_⟩
    split
    · next hkind => exact Assignment.permanents_addCardToDeck hkind
    · next hkind =>
      exact Assignment.permanents_execute (t := { m.table with dice }) hkind

/-- A temporary copper in hand gives way to a permanent silver when all treasures in hand are
upgraded, although no card was added to the deck. -/
theorem Engine.not_permanents_le_of_temporary_copper :
    let r : Rules :=
      { catalog := { cards := [Starter.treasure .copper, Starter.treasure .silver] } }
    let copper : Card :=
      { serial := 1, instanceId := "copper#1", cardId := "copper", temporary := true }
    let m : Machine :=
      { table := { game := { zones := { hand := [copper] }, instancesMade := 1, copiesMade := 1 },
                   dice := { twister := { words := #[], used := 0 } } } }
    let upgrade : Effect := { kind := .known .permanentUpgrade, target := .allHandTreasure }
    let p : Pending := { effect := upgrade, speculative := 0, source := none }
    (exec (upgrade.autoTargets r none) m.table).1 = .ok [copper] ∧
      (exec (p.carriedOut r [copper] m.results) m.table).1 =
        .ok (0, { kind := .known .permanentUpgrade, success := true, count := 1, value := 0 }) ∧
      ¬ (exec (p.carriedOut r [copper] m.results) m.table).2.permanents ≤ m.table.permanents := by
  intro r copper m upgrade p
  refine ⟨?_, ?_, ?_⟩
  · decide +kernel
  · decide +kernel
  · decide +kernel

end Treasury
