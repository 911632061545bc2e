import Treasury.Proofs.Activation.Ledger
import Treasury.Proofs.Execution.Inflow
import Treasury.Starter.Cards

/-!
# Cards without a definition

Effects should not bring cards into the game that the catalog does not define. Those that make cards
look the definition up first, but those that exchange cards do not: a catalog may define a treasure
and not the one of the next grade.

* `Effect.LeavesCatalog`: an effect lets a card give way to a copy of something undefined, or puts a
  card down that is not defined and comes from outside the table.
* `defined_or_leavesCatalog`: those are the only ways in which an undefined card gets onto the
  table, be it by one effect or by all that the calls of a host do.
* `Catalog.Closed`: a catalog that defines what its cards can be upgraded to, and
  `Effect.not_leavesCatalog_of_closed`, by which nothing gives way to something undefined then.
-/

namespace Treasury

/-- All cards on the table are copies of definitions. -/
def Table.Defined (r : Rules) (t : Table) : Prop :=
  ∀ c ∈ t.game.zones.cards, r.catalog.hasCard c.cardId = true

/-- Carried out on some targets, an effect lets a card give way to a copy of something that is not
defined, or puts a card from outside down that is not defined. -/
def Effect.LeavesCatalog (e : Effect) (r : Rules) (targets : List Card) (g : GameState) : Prop :=
  (∃ old cardId, e.Exchanges r targets g old cardId ∧ r.catalog.hasCard cardId = false) ∨
    ∃ c, e.PutsDown r targets g c ∧ c ∉ g.zones.cards ∧ r.catalog.hasCard c.cardId = false

/-- A game is ahead of the cards around: no card on the table has a number that is still to be given
out, and no target has an id that is still to be made. -/
structure GameState.Ahead (g : GameState) (targets : List Card) : Prop where
  /-- No card on the table is newer than the game knows. -/
  serial_le : ∀ c ∈ g.zones.cards, c.serial ≤ g.copiesMade
  /-- No target is named like a copy that is still to be made. -/
  unmade : ∀ c ∈ targets, ∀ cardId n, g.instancesMade < n → c.instanceId ≠ numbered cardId n

/-- Where ids are unique and numbers tell copies apart, a game is ahead of the cards of a table. -/
theorem GameState.Distinct.ahead {g : GameState} {outside targets : List Card} (hg : g.Distinct)
    (hcoherent : Coherent outside g) (htargets : ∀ c ∈ targets, c ∈ g.zones.cards) :
    g.Ahead targets where
  serial_le c hc := hcoherent.serial_le c (.inl hc)
  unmade c hc cardId n hn hid :=
    hg.unreached cardId n hn (Pile.mem_ids.mpr ⟨c, htargets c hc, hid⟩)

/-! ## One effect -/

namespace Assignment

variable {a : Assignment} {r : Rules} {t : Table}

/-- Unless an effect leaves the catalog, the cards that it brings in are defined. -/
theorem mem_or_hasCard_of_execute (h : ¬ a.effect.LeavesCatalog r a.targets t.game) {c : Card}
    (hc : c ∈ (exec (a.execute r) t).2.game.zones.cards) :
    c ∈ t.game.zones.cards ∨ r.catalog.hasCard c.cardId = true := by
  obtain hc | hdefined | ⟨old, hexchanges⟩ | hputs := mem_cards_execute hc
  · exact .inl hc
  · exact .inr hdefined
  · by_contra hnot
    obtain ⟨-, hundefined⟩ := not_or.mp hnot
    exact h (.inl ⟨old, c.cardId, hexchanges, Bool.eq_false_iff.mpr hundefined⟩)
  · by_contra hnot
    obtain ⟨hnew, hundefined⟩ := not_or.mp hnot
    exact h (.inr ⟨c, hputs, hnew, Bool.eq_false_iff.mpr hundefined⟩)

/-- What gives way is replaced for good: a copy of the other definition is on the table that was not
there before. -/
theorem exists_mem_of_exchanges {old : Card} {cardId : String}
    (h : a.effect.Exchanges r a.targets t.game old cardId) (hahead : t.game.Ahead a.targets) :
    ∃ c ∈ (exec (a.execute r) t).2.game.zones.cards,
      c ∉ t.game.zones.cards ∧ c.cardId = cardId := by
  -- A card with a number that the game had not reached is a new one.
  have hnew : ∀ c : Card, t.game.copiesMade < c.serial → c ∉ t.game.zones.cards := fun c hc hmem =>
    absurd (hahead.serial_le c hmem) (Nat.not_le.mpr hc)
  obtain ⟨hkind, grade, hupgrades, rfl⟩ | ⟨hkind, hdeck⟩ := h
  · have hexecute : a.execute r = a.upgradeTreasure r := execute_of_known hkind r
    rw [hexecute, exec_upgradeTreasure]
    obtain ⟨c, hc, hid, hserial⟩ := exists_mem_cards_upgraded hupgrades hahead.unmade
    exact ⟨c, hc, hnew c hserial, hid⟩
  · have hexecute : a.execute r = a.upgradeCardInDeck := execute_of_known hkind r
    rw [hexecute]
    obtain ⟨-, hnone⟩ | ⟨zone, d, old', cardId', hold, hdone, hexchange⟩ :=
      upgradeCardInDeck_cases a t
    · exact absurd hdeck (hnone old cardId)
    · obtain ⟨rfl, rfl⟩ := (hexchange old cardId).mp hdeck
      rw [hdone]
      refine ⟨(t.game.newCard cardId false d.owner).1, Zones.mem_cards_iff_exists.mpr ⟨zone, ?_⟩,
        hnew _ (Nat.lt_succ_self _), rfl⟩
      change _ ∈ (t.game.zones.update zone _).pile zone
      rw [Zones.pile_update_self]
      exact Pile.mem_exchanged_self hold _

/-- An effect that leaves the catalog brings in a card that is not defined. -/
theorem exists_undefined_of_leavesCatalog (h : a.effect.LeavesCatalog r a.targets t.game)
    (hahead : t.game.Ahead a.targets) :
    ∃ c ∈ (exec (a.execute r) t).2.game.zones.cards,
      c ∉ t.game.zones.cards ∧ r.catalog.hasCard c.cardId = false := by
  obtain ⟨old, cardId, hexchanges, hundefined⟩ | ⟨c, ⟨hkind, hin, hput⟩, hnew, hundefined⟩ := h
  · obtain ⟨c, hc, hnew, rfl⟩ := exists_mem_of_exchanges hexchanges hahead
    exact ⟨c, hc, hnew, hundefined⟩
  · have hexecute : a.execute r = a.moveToDeckBottom r := execute_of_known hkind r
    refine ⟨c, ?_, hnew, hundefined⟩
    rw [hexecute, zones_moveToDeckBottom, if_neg hin]
    exact (Zones.mem_foldl_put_iff (by decide) hnew).mpr hput

end Assignment

/-! ## Whole histories -/

/-- An effect that was carried out left the catalog. -/
def Deed.LeavesCatalog (r : Rules) : Deed → Prop
  | .carriedOut _ _ y _ _ =>
    y.assignment.effect.LeavesCatalog r y.assignment.targets y.before.game
  | _ => False

namespace Scene

variable {r : Rules} {s s' : Scene}

/-- At one step all cards stay defined, or an effect leaves the catalog. -/
theorem Step.defined {d : Option Deed} (hstep : Step r s d s') (h : s.machine.table.Defined r) :
    s'.machine.table.Defined r ∨ ∃ e ∈ d, e.LeavesCatalog r := by
  cases hstep with
  | @carriedOut m p targets t u magnitude y hcurrent hfetched hmagnitude hy =>
    by_cases hleaves : y.assignment.effect.LeavesCatalog r y.assignment.targets y.before.game
    · exact .inr ⟨_, rfl, hleaves⟩
    · refine .inl fun c hc => ?_
      -- Until the effect is carried out, only dice are thrown.
      obtain ⟨dice, rfl⟩ := hfetched.rolled_magnitude hmagnitude
      refine (Assignment.mem_or_hasCard_of_execute hleaves hc).elim (fun hold => h c ?_) id
      rwa [hy] at hold
  | faulted m hcurrent hfetched hmagnitude =>
    obtain ⟨dice, rfl⟩ := hfetched.rolled_magnitude hmagnitude
    exact .inl h
  | rolled m opening hrolled =>
    obtain ⟨dice, rfl⟩ := hrolled
    exact .inl h
  | named m opening id =>
    refine .inl fun c hc => h c ?_
    change c ∈ (m.table.game.cardNamed id).2.zones.cards at hc
    rwa [GameState.zones_cardNamed] at hc
  | _ => exact .inl h

/-- Along a history all cards stay defined, or an effect on the way leaves the catalog. -/
theorem Path.defined {h : List Deed} (hpath : Path r s h s') (hs : s.machine.table.Defined r) :
    s'.machine.table.Defined r ∨ ∃ d ∈ h, d.LeavesCatalog r := by
  induction hpath with
  | refl => exact .inl hs
  | snoc _ hstep ih =>
    rcases ih with hmiddle | ⟨d, hd, hleaves⟩
    · refine (hstep.defined hmiddle).imp_right fun ⟨d, hd, hleaves⟩ => ?_
      exact ⟨d, List.mem_append_right _ (Option.mem_toList.mpr hd), hleaves⟩
    · exact .inr ⟨d, List.mem_append_left _ hd, hleaves⟩

end Scene

/-! ## Catalogs that define all upgrades -/

/-- A catalog defines what its cards can be upgraded to, in hand and in the deck. -/
structure Catalog.Closed (c : Catalog) : Prop where
  /-- With a treasure, the one of the next grade is defined. -/
  treasures : ∀ d ∈ c.cards, d.isTreasure = true → ∀ grade ∈ d.grade, ∀ next ∈ grade.next?,
    c.hasCard next.cardId = true
  /-- With a card that whole-deck effects upgrade, the one it becomes is defined. -/
  deck : ∀ d ∈ c.cards, ∀ next ∈ deckUpgrade? d.id, c.hasCard next = true

example : Starter.catalog.Closed := ⟨by decide, by decide⟩

namespace Effect

variable {e : Effect} {r : Rules} {targets : List Card} {g : GameState}

/-- With a closed catalog, defined cards give way to defined ones. -/
theorem hasCard_of_exchanges (hclosed : r.catalog.Closed)
    (hdefined : ∀ c ∈ g.zones.cards, r.catalog.hasCard c.cardId = true) {old : Card}
    {cardId : String} (h : e.Exchanges r targets g old cardId) :
    r.catalog.hasCard cardId = true := by
  obtain ⟨-, grade, ⟨before, c, after, -, hgrade, -⟩, rfl⟩ | ⟨-, hdeck, zone, c, hfound, -⟩ := h
  · -- The target has a grade by its definition, and the catalog has the treasure of the next.
    obtain ⟨own, hown, hnext⟩ := Option.bind_eq_some_iff.mp hgrade
    unfold Rules.treasureGrade? at hown
    split at hown
    · next d hd =>
      split at hown
      · next htreasure =>
        exact hclosed.treasures d (List.mem_of_find?_eq_some hd) htreasure own hown grade hnext
      · cases hown
    · cases hown
  · -- The card that is found is on the table, so it has a definition, and that is upgraded.
    obtain ⟨hid, hmem⟩ := Zones.of_search hfound
    obtain ⟨d, hd⟩ := Option.isSome_iff_exists.mp
      (hdefined c (Zones.mem_cards_iff_exists.mpr ⟨zone, hmem⟩))
    have hnamed : d.id = e.upgradedId := by
      have hcard : d.id = c.cardId := of_decide_eq_true
        (List.find?_some (p := fun x : CardDefinition => decide (x.id = c.cardId)) hd)
      exact hcard.trans (of_decide_eq_true hid)
    exact hclosed.deck d (List.mem_of_find?_eq_some hd) cardId (hnamed ▸ hdeck)

/-- With a closed catalog and defined cards, an effect whose targets are on the table does not leave
the catalog. -/
theorem not_leavesCatalog_of_closed (hclosed : r.catalog.Closed)
    (hdefined : ∀ c ∈ g.zones.cards, r.catalog.hasCard c.cardId = true)
    (htargets : ∀ c ∈ targets, c ∈ g.zones.cards) : ¬ e.LeavesCatalog r targets g := by
  rintro (⟨old, cardId, hexchanges, hundefined⟩ | ⟨c, ⟨-, -, d, hput⟩, hnew, -⟩)
  · rw [hasCard_of_exchanges hclosed hdefined hexchanges] at hundefined
    cases hundefined
  · exact hnew (htargets c (Pile.of_mem_taken hput).1)

end Effect

/-! ## What the engine makes of it -/

/-- The cards that an effect brings onto the table are defined unless it leaves the catalog, and if
it does, a card that is not defined is there that was not there before. So if all cards are defined,
they are still defined after all calls of a host and all that observers do inside of them, or some
effect on the way left the catalog. -/
theorem defined_or_leavesCatalog (r : Rules) (m : Machine) :
    (∀ (tell : Engine.Tell) (p : Pending) (targets : List Card),
      match exec (p.carriedOut r targets m.results) m.table with
      | (.error f, t) =>
        exec (Engine.dispatch tell r p targets) m =
            (.error (.fault f), { m with phase := .dispatching, table := t }) ∧
          t.game.zones = m.table.game.zones
      | (.ok (magnitude, result), t) =>
        exec (Engine.dispatch tell r p targets) m =
            exec (tell (.executed p.effect.kind magnitude result))
              { m with phase := .dispatching, table := t, results := m.results.push result,
                       current := none } ∧
          (¬ p.effect.LeavesCatalog r targets m.table.game → ∀ c ∈ t.game.zones.cards,
            c ∈ m.table.game.zones.cards ∨ r.catalog.hasCard c.cardId = true) ∧
          (p.effect.LeavesCatalog r targets m.table.game → m.table.game.Ahead targets →
            ∃ c ∈ t.game.zones.cards,
              c ∉ m.table.game.zones.cards ∧ r.catalog.hasCard c.cardId = false)) ∧
      ∀ cs : List HostCall, m.DoesAll r cs (m.deeds r cs) ∧
        (m.table.Defined r →
          (m.afterCalls r cs).table.Defined r ∨ ∃ d ∈ m.deeds r cs, d.LeavesCatalog r) := by
  constructor
  · intro tell p targets
    rw [Engine.exec_dispatch, Pending.exec_carriedOut]
    -- Working out the magnitude throws the dice at most.
    obtain ⟨dice, hrolled⟩ := p.keeps_magnitude r targets m.results m.table
    rcases hmagnitude : exec (p.magnitude r targets m.results) m.table with ⟨f | magnitude, u⟩ <;>
      rw [hmagnitude] at hrolled <;> obtain rfl : u = _ := hrolled
    · exact ⟨rfl, rfl⟩
    · refine ⟨rfl, fun hstays c hc => ?_, fun hleaves hahead => ?_⟩
      · exact Assignment.mem_or_hasCard_of_execute (t := { m.table with dice }) hstays hc
      · exact Assignment.exists_undefined_of_leavesCatalog (t := { m.table with dice }) hleaves
          hahead
  · intro cs
    exact ⟨m.doesAll_deeds cs, (m.doesAll_deeds cs).path.defined⟩

/-- With a catalog of copper alone, upgrading a copper puts a silver into the hand that is not
defined. -/
theorem not_defined_of_copper_upgraded :
    let r : Rules := { catalog := { cards := [Starter.treasure .copper] } }
    let copper : Card := { serial := 1, instanceId := "copper#1", cardId := "copper" }
    let m : Machine :=
      { table := { game := { zones := { hand := [copper] }, instancesMade := 1, copiesMade := 1 },
                   dice := { twister := { words := #[], used := 0 } } } }
    let upgrade : Effect := { kind := .known .permanentUpgrade, target := .allHandTreasure }
    let after := (m.call r (.start [.always [upgrade]] none)).2
    m.table.Defined r ∧ ¬ after.table.Defined r := by
  intro r copper m upgrade after
  unfold Table.Defined
  refine ⟨by decide +kernel, by decide +kernel⟩

end Treasury
