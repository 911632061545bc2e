import Treasury.Execution.Execute
import Treasury.Proofs.Play

/-!
# Footprints of effects

Thirty kinds of effects act on one table, through services that loop, refill a deck or bury a unit
with its cards. Which parts of the table a kind may change is said once, by `Part.changedBy`. All
services and all kinds of effects are gone through here, so that what other proofs need to know
about the parts that stay as they are follows from `Table.DiffersIn.executeKind`.

* `Part.Same`: a part is the same on two tables.
* `Table.DiffersIn`: two tables differ in the given parts at most. There is one lemma for each
  service, and one for each effect that does more than to call a service.
* `Table.DiffersIn.executeKind`: effects of a kind change the parts that their kind changes, and
  `Part.Same.executeKind` leaves each other part as it is.
-/

namespace Treasury

/-- A part of the table. -/
inductive Part where
  /-- The id of the game and the number of the turn. -/
  | turn
  /-- The gold held. -/
  | gold
  /-- The actions left. -/
  | actions
  /-- The deck, the hand and the discard pile. -/
  | piles
  /-- The play area. -/
  | playArea
  /-- The boosts of all cards. -/
  | boosts
  /-- The units and the houses. -/
  | units
  /-- The effects of later turns. -/
  | scheduled
  /-- The gold multiplier. -/
  | multiplier
  /-- The gold bonus. -/
  | bonus
  /-- Whether pollution is ignored. -/
  | pollution
  /-- The discount on promotions. -/
  | discount
  /-- The free promotions that were asked for. -/
  | promises
  /-- The dice. -/
  | dice
  /-- The counters of instance ids and of physical copies. -/
  | cardNumbers
  /-- The counter of unit ids. -/
  | unitNumbers
  /-- The counter of the ids of scheduled effects. -/
  | effectNumbers
  deriving DecidableEq, Repr

namespace Part

/-- A part is the same on both tables. -/
def Same (p : Part) (t u : Table) : Prop :=
  match p with
  | turn => (u.game.gameId, u.game.turn) = (t.game.gameId, t.game.turn)
  | gold => u.game.gold = t.game.gold
  | actions => u.game.actions = t.game.actions
  | piles => (u.game.zones.deck, u.game.zones.hand, u.game.zones.discard) =
      (t.game.zones.deck, t.game.zones.hand, t.game.zones.discard)
  | playArea => u.game.zones.play = t.game.zones.play
  | boosts => u.game.boosts = t.game.boosts
  | units => (u.game.residents, u.game.houses) = (t.game.residents, t.game.houses)
  | scheduled => u.game.scheduled = t.game.scheduled
  | multiplier => u.game.goldMultiplier = t.game.goldMultiplier
  | bonus => u.game.goldBonus = t.game.goldBonus
  | pollution => u.game.pollutionIgnored = t.game.pollutionIgnored
  | discount => u.game.promotionDiscount = t.game.promotionDiscount
  | promises => u.promotions = t.promotions
  | dice => u.dice = t.dice
  | cardNumbers => (u.game.instancesMade, u.game.copiesMade) =
      (t.game.instancesMade, t.game.copiesMade)
  | unitNumbers => u.game.unitsMade = t.game.unitsMade
  | effectNumbers => u.game.effectsMade = t.game.effectsMade

instance (p : Part) : IsPreorder Table p.Same where
  refl _ := by cases p <;> rfl
  trans _ _ _ h k := by cases p <;> exact Eq.trans k h

/-- The kinds of effects that may change a part. -/
def changedBy : Part → List EffectKind
  | turn => []
  | gold => [.addGold, .settleCard, .gamble, .spendGoldPercent]
  | actions => [.addAction]
  | piles => [.drawCard, .drawUntil, .createTempTreasure, .permanentUpgrade, .settleCard,
      .destroyCard, .destroyPollution, .moveToDeckBottom, .shuffleDeck, .revealAndGain,
      .removeUnit, .addCardToDeck, .removeCardFromDeck, .upgradeCardInDeck]
  | playArea => [.destroyCard, .destroyPollution, .removeUnit]
  | boosts => [.boostTreasure]
  | units => [.gainUnit, .removeUnit, .addPromotionLevel]
  | scheduled | effectNumbers =>
    [.delayedGold, .persistentGold, .persistentMaintenance, .maintenanceModifier]
  | multiplier => [.goldMultiplier]
  | bonus => [.goldBonus]
  | pollution => [.ignorePollution]
  | discount => [.promotionDiscount]
  | promises => [.freePromotion]
  | dice => [.drawCard, .drawUntil, .shuffleDeck, .gamble, .removeUnit, .freePromotion,
      .addPromotionLevel]
  | cardNumbers => [.createTempTreasure, .permanentUpgrade, .addCardToDeck, .upgradeCardInDeck]
  | unitNumbers => [.gainUnit]

end Part

namespace Zones

/-- Whole-deck effects do not search the play area. -/
theorem ne_play_of_search {z : Zones} {p : Card → Bool} {zone : Zone} {c : Card}
    (h : z.search p searched = some (zone, c)) : zone ≠ .play := by
  simp only [searched, search] at h
  split at h
  · cases h
    decide
  · split at h
    · cases h
      decide
    · split at h
      · cases h
        decide
      · cases h

theorem play_update {zone : Zone} (h : zone ≠ .play) (z : Zones) (f : Pile → Pile) :
    (z.update zone f).play = z.play := pile_update_of_ne z h.symm f

theorem play_toBottom (cs : List Card) (z : Zones) : (z.toBottom cs).2.play = z.play := by
  induction cs generalizing z with
  | nil => rfl
  | cons c rest ih =>
    unfold toBottom
    split
    · exact ih _
    · exact ih z

theorem play_layAway (z : Zones) (c : Card) : (z.layAway c).play = z.play := by
  unfold layAway
  split <;> rfl

theorem play_settled (r : Rules) (boosts : Boosts) (cs : List Card) (z : Zones) :
    (Deck.settled r boosts cs z).2.play = z.play := by
  induction cs generalizing z with
  | nil => rfl
  | cons c rest ih =>
    unfold Deck.settled
    split
    · exact (ih _).trans (play_layAway z c)
    · exact ih z

theorem play_dealt (r : Rules) (cs : List Card) (z : Zones) : (dealt r cs z).2.play = z.play := by
  induction cs generalizing z with
  | nil => rfl
  | cons c rest ih =>
    unfold dealt
    split
    · exact ih _
    · exact ih _

theorem play_removing (p : Card → Bool) (n : Nat) (z : Zones) :
    (removing p n z).2.play = z.play := by
  induction n generalizing z with
  | zero => rfl
  | succ n ih =>
    unfold removing
    split
    · rfl
    · next hfound => exact (ih _).trans (play_update (ne_play_of_search hfound) z _)

end Zones

/-- The second table differs from the first in the given parts at most. -/
def Table.DiffersIn (ps : List Part) (t u : Table) : Prop := ∀ p, p ∈ ps ∨ p.Same t u

namespace Table.DiffersIn

variable {r : Rules} {α : Type} {ps : List Part}

instance : IsPreorder Table (DiffersIn ps) where
  refl t _ := .inr (Std.Refl.refl t)
  trans _ _ _ h k p := (h p).elim .inl fun hp => (k p).imp_right (IsTrans.trans _ _ _ hp)

/-- What differs in some parts at most differs in more at most. -/
theorem mono {qs : List Part} {t u : Table} (hsub : ps ⊆ qs) (h : t.DiffersIn ps u) :
    t.DiffersIn qs u := fun p => (h p).imp_left (@hsub p)

/-- A part that is not among those is the same. -/
theorem same {t u : Table} {p : Part} (h : t.DiffersIn ps u) (hp : p ∉ ps) : p.Same t u :=
  (h p).resolve_left hp

theorem zones_eq {t u : Table} (h : t.DiffersIn ps u) (hpiles : .piles ∉ ps)
    (hplay : .playArea ∉ ps) : u.game.zones = t.game.zones := by
  have hthree := h.same hpiles
  have hlast := h.same hplay
  simp only [Part.Same, Prod.mk.injEq] at hthree hlast
  rw [Zones.mk.injEq]
  exact ⟨hthree.1, hthree.2.1, hthree.2.2, hlast⟩

/-! ## Changes of a part -/

theorem game : Keeps (DiffersIn ps) Play.game := .of_fixed fun _ => rfl

theorem calculate (answer : Except Numeric.NumberError α) :
    Keeps (DiffersIn ps) (Play.calculate answer) := .of_fixed fun t => by rw [Play.exec_calculate]

theorem keeps_of_rolled (h : .dice ∈ ps) {x : Play α} (hx : Keeps Rolled x) :
    Keeps (DiffersIn ps) x := by
  refine hx.mono fun t u hrolled p => ?_
  obtain ⟨dice, rfl⟩ := hrolled
  cases p <;> first | exact .inr rfl | exact .inl h

theorem changeGold (h : .gold ∈ ps) (f : GameState → Int) :
    Keeps (DiffersIn ps) (Play.changeGame fun g => { g with gold := f g }) := fun t p => by
  cases p <;> first | exact .inr rfl | exact .inl h

theorem changeUnits (h : .units ∈ ps) (f : GameState → List Resident) (k : GameState → List House) :
    Keeps (DiffersIn ps) (Play.changeGame fun g => { g with residents := f g, houses := k g }) :=
  fun t p => by cases p <;> first | exact .inr rfl | exact .inl h

/-- Whatever becomes of the piles, as long as the play area stays. -/
theorem of_piles (h : .piles ∈ ps) {t : Table} {z : Zones} (hplay : z.play = t.game.zones.play) :
    DiffersIn ps t { t with game := { t.game with zones := z } } := fun p => by
  cases p <;> first | exact .inr rfl | exact .inl h | exact .inr hplay

theorem changePiles (h : .piles ∈ ps) {f : Zones → Zones} (hplay : ∀ z, (f z).play = z.play) :
    Keeps (DiffersIn ps) (Play.changeZones f) := fun t => of_piles h (hplay t.game.zones)

theorem changeZones (hpiles : .piles ∈ ps) (hplay : .playArea ∈ ps) (f : Zones → Zones) :
    Keeps (DiffersIn ps) (Play.changeZones f) := fun t p => by
  cases p <;> first | exact .inr rfl | exact .inl hpiles | exact .inl hplay

/-- A new copy of a card takes numbers, and lies nowhere yet. -/
theorem newCard (h : .cardNumbers ∈ ps) (cardId : String) (temporary : Bool)
    (owner : Option String) :
    Keeps (DiffersIn ps) (Play.makeFromGame (·.newCard cardId temporary owner)) := fun t p => by
  cases p <;> first | exact .inr rfl | exact .inl h

/-! ## Gold and the turn -/

theorem addGold (h : .gold ∈ ps) (amount : Int) (modified : Bool) :
    Keeps (DiffersIn ps) (Economy.addGold r amount modified) := by
  refine Play.keeps_serve ?_
  have hgain : ∀ gain : Int, Keeps (DiffersIn ps)
      (do Play.changeGame fun g => { g with gold := g.gold + gain }; return gain) := fun gain =>
    .bind (changeGold h _) fun _ => .pure _
  split
  · exact .bind game fun g => .bind (calculate _) hgain
  · exact hgain amount

theorem subtractGold (h : .gold ∈ ps) (amount : Int) :
    Keeps (DiffersIn ps) (Economy.subtractGold r amount) := Play.keeps_serve (changeGold h _)

theorem apply (h : .gold ∈ ps) (amount : Int) : Keeps (DiffersIn ps) (Economy.apply r amount) :=
  .ite (.map (addGold h amount true) _) (subtractGold h _)

theorem addActions (h : .actions ∈ ps) (count : Int) :
    Keeps (DiffersIn ps) (Economy.addActions r count) := Play.keeps_serve fun t p => by
  cases p <;> first | exact .inr rfl | exact .inl h

theorem multiplyMultiplier (h : .multiplier ∈ ps) (factor : Numeric.Binary64) :
    Keeps (DiffersIn ps) (Economy.multiplyMultiplier r factor) := Play.keeps_serve fun t p => by
  cases p <;> first | exact .inr rfl | exact .inl h

theorem addBonus (h : .bonus ∈ ps) (bonus : Int) :
    Keeps (DiffersIn ps) (Economy.addBonus r bonus) := Play.keeps_serve fun t p => by
  cases p <;> first | exact .inr rfl | exact .inl h

theorem amount (h : .dice ∈ ps) (a : Amount) (results : ResultStack) :
    Keeps (DiffersIn ps) (a.resolve r results) := by
  cases a with
  | fixed n => exact .pure _
  | computed s => exact keeps_of_rolled h (Rolled.resolve s r results [])

theorem gamble (hgold : .gold ∈ ps) (hdice : .dice ∈ ps) (a : Assignment) :
    Keeps (DiffersIn ps) (a.gamble r) :=
  .bind (keeps_of_rolled hdice (Rolled.throwDice _)) fun _ => .bind (amount hdice _ _) fun _ =>
    .bind (amount hdice _ _) fun _ => .bind (apply hgold _) fun _ => .pure _

theorem multiplyGold (h : .multiplier ∈ ps) (a : Assignment) :
    Keeps (DiffersIn ps) (a.multiplyGold r) := by
  unfold Assignment.multiplyGold
  split
  · exact .pure _
  · exact .bind (multiplyMultiplier h _) fun _ => .pure _

theorem spendGoldPercent (h : .gold ∈ ps) (a : Assignment) :
    Keeps (DiffersIn ps) (a.spendGoldPercent r) := by
  refine .bind game fun g => .bind (calculate _) fun loss => ?_
  split
  · exact .bind (subtractGold h _) fun _ => .pure _
  · exact .pure _

theorem discountPromotions (h : .discount ∈ ps) (a : Assignment) :
    Keeps (DiffersIn ps) a.discountPromotions := .bind (fun t p => by
  cases p <;> first | exact .inr rfl | exact .inl h) fun _ => .pure _

theorem ignorePollution (h : .pollution ∈ ps) (a : Assignment) :
    Keeps (DiffersIn ps) a.ignorePollution := .bind (fun t p => by
  cases p <;> first | exact .inr rfl | exact .inl h) fun _ => .pure _

theorem schedule (hnumber : .effectNumbers ∈ ps) (h : .scheduled ∈ ps) (a : Assignment)
    (kind : ScheduleKind) (turns : Int) : Keeps (DiffersIn ps) (a.schedule kind turns) := by
  refine .bind (fun t p => ?_) fun _ => .bind (fun t p => ?_) fun _ => .pure _
  · cases p <;> first | exact .inr rfl | exact .inl hnumber
  · cases p <;> first | exact .inr rfl | exact .inl h

/-! ## The deck -/

theorem shuffle (hpiles : .piles ∈ ps) (hdice : .dice ∈ ps) :
    Keeps (DiffersIn ps) (Deck.shuffle r) :=
  Play.keeps_serve <| .bind game fun _ => .bind (keeps_of_rolled hdice (Rolled.throwDice _))
    fun _ => changePiles hpiles fun _ => rfl

theorem refill (hpiles : .piles ∈ ps) (hdice : .dice ∈ ps) :
    Keeps (DiffersIn ps) (Deck.refill r) :=
  .bind game fun _ => .ite (.pure _) <| .bind (changePiles hpiles fun _ => rfl) fun _ =>
    shuffle hpiles hdice

theorem take (hpiles : .piles ∈ ps) (hdice : .dice ∈ ps) (n : Nat) :
    Keeps (DiffersIn ps) (Deck.take r n) := by
  induction n with
  | zero => exact .pure _
  | succ n ih =>
    refine .bind game fun g => ?_
    extract_lets top
    -- Once the deck is refilled, a card is taken from its top and then the rest.
    have htop (u) : Keeps (DiffersIn ps) (top u) := by
      refine .bind game fun g => ?_
      split
      · exact .pure _
      · exact .bind (changePiles hpiles fun _ => rfl) fun _ => .bind ih fun _ => .pure _
    split
    · exact .bind (refill hpiles hdice) htop
    · exact htop ()

theorem draw (hpiles : .piles ∈ ps) (hdice : .dice ∈ ps) (count : Int) :
    Keeps (DiffersIn ps) (Deck.draw r count) :=
  Play.keeps_serve (.bind game fun _ => .ite (.pure _) (take hpiles hdice _))

theorem destroyAll (hpiles : .piles ∈ ps) (hplay : .playArea ∈ ps) (cs : List Card) :
    Keeps (DiffersIn ps) (Assignment.destroyAll r cs) := by
  induction cs with
  | nil => exact .pure _
  | cons c rest ih =>
    refine .bind (Play.keeps_serve (.bind game fun g => ?_)) fun _ => .bind ih fun _ => .pure _
    split
    · exact .bind (changeZones hpiles hplay _) fun _ => .pure _
    · exact .pure _

/-- Laying treasures away takes them to the discard pile; the gold for them is paid after that. -/
theorem layAway (h : .piles ∈ ps) (cs : List Card) : Keeps (DiffersIn ps) (Deck.settle r cs) :=
  Play.keeps_serve fun t => of_piles h (Zones.play_settled r _ cs t.game.zones)

/-- Once cards are settled only the gold for them is gained. -/
theorem gainOfSettled (h : .gold ∈ ps) (a : Assignment) (total : Int) :
    Keeps (DiffersIn ps) (do
      if total > 0 then discard (Economy.addGold r total true)
      return a.done a.targets.length total) := by
  dsimp only
  split
  · exact .bind (.map (addGold h _ _) _) fun _ => .pure _
  · exact .pure _

theorem settle (hpiles : .piles ∈ ps) (hgold : .gold ∈ ps) (a : Assignment) :
    Keeps (DiffersIn ps) (a.settle r) :=
  .ite (.pure _) (.bind (layAway hpiles a.targets) fun total => gainOfSettled hgold a total)

theorem moveToDeckBottom (h : .piles ∈ ps) (a : Assignment) :
    Keeps (DiffersIn ps) (a.moveToDeckBottom r) :=
  .bind (Play.keeps_serve fun t => of_piles h (Zones.play_toBottom a.targets t.game.zones))
    fun _ => .pure _

theorem revealAndGain (h : .piles ∈ ps) (a : Assignment) :
    Keeps (DiffersIn ps) (a.revealAndGain r) :=
  .bind (Play.keeps_serve fun _ => of_piles h rfl) fun cs => .ite (.pure _) <|
    .bind (fun t => of_piles h (Zones.play_dealt r cs t.game.zones)) fun _ => .pure _

theorem removeCardFromDeck (h : .piles ∈ ps) (a : Assignment) :
    Keeps (DiffersIn ps) (a.removeCardFromDeck r) :=
  .bind (fun t => of_piles h (Zones.play_removing _ _ t.game.zones)) fun _ => .pure _

theorem addCopies (hnumbers : .cardNumbers ∈ ps) (hpiles : .piles ∈ ps) (cardId : String)
    (n : Nat) : Keeps (DiffersIn ps) (Assignment.addCopies r cardId n) := by
  induction n with
  | zero => exact .pure _
  | succ n ih =>
    refine .bind (.map (Play.keeps_serve ?_) _) fun _ => ih
    exact .bind (newCard hnumbers _ _ _) fun _ => .bind (changePiles hpiles fun _ => rfl)
      fun _ => .pure _

theorem createTreasure (hnumbers : .cardNumbers ∈ ps) (hpiles : .piles ∈ ps) (a : Assignment) :
    Keeps (DiffersIn ps) (a.createTreasure r) := by
  unfold Assignment.createTreasure
  split
  · exact .pure _
  · refine .bind (.map (Play.keeps_serve ?_) _) fun _ => .pure _
    exact .bind (newCard hnumbers _ _ _) fun _ => .bind (changePiles hpiles fun _ => rfl)
      fun _ => .pure _

theorem upgraded (hnumbers : .cardNumbers ∈ ps) (hpiles : .piles ∈ ps) (cs : List Card)
    (t : Table) : DiffersIn ps t { t with game := (Assignment.upgraded r cs t.game).2 } := by
  induction cs generalizing t with
  | nil => exact Std.Refl.refl t
  | cons c rest ih =>
    unfold Assignment.upgraded
    split
    · exact ih t
    · next grade _ =>
      split
      · let made := t.game.newCard grade.cardId false c.owner
        let hand := t.game.zones.hand.exchanged c made.1
        -- The new copy lies in the place of the card, and the rest goes on from there.
        refine IsTrans.trans t _ _ (fun p => ?_)
          (ih { t with game := { made.2 with zones := { t.game.zones with hand } } })
        cases p <;> first | exact .inr rfl | exact .inl hnumbers | exact .inl hpiles
      · exact ih t

theorem upgradeCardInDeck (hnumbers : .cardNumbers ∈ ps) (hpiles : .piles ∈ ps) (a : Assignment) :
    Keeps (DiffersIn ps) a.upgradeCardInDeck := by
  refine .bind game fun g => ?_
  split
  · next hfound =>
    exact .bind (newCard hnumbers _ _ _) fun _ => .bind
      (changePiles hpiles fun z => Zones.play_update (Zones.ne_play_of_search hfound) z _)
      fun _ => .pure _
  · exact .pure _

theorem boostTreasure (h : .boosts ∈ ps) (a : Assignment) :
    Keeps (DiffersIn ps) (a.boostTreasure r) := .bind (fun t p => by
  cases p <;> first | exact .inr rfl | exact .inl h) fun _ => .pure _

/-! ## The household -/

theorem store (h : .units ∈ ps) (m : Member) (u : Resident) :
    Keeps (DiffersIn ps) (Roster.store m u) := by
  cases m with
  | listed i => exact changeUnits h _ _
  | outside u => exact .pure _

theorem autoPlace (h : .units ∈ ps) (m : Member) : Keeps (DiffersIn ps) (Roster.autoPlace r m) := by
  refine Play.keeps_serve (.bind game fun g => ?_)
  dsimp only
  split
  · exact .bind (changeUnits h (·.residents) _) fun _ => .bind (store h _ _) fun _ => .pure _
  · exact .pure _

theorem leaveHouse (h : .units ∈ ps) (m : Member) :
    Keeps (DiffersIn ps) (Roster.removeUnit r m) := by
  refine Play.keeps_serve (.bind game fun g => ?_)
  dsimp only
  split
  · exact .bind (changeUnits h (·.residents) _) fun _ => .bind (store h _ _) fun _ => .pure _
  · exact .pure _

theorem createUnit (hnumber : .unitNumbers ∈ ps) (h : .units ∈ ps) (name : String) (job : Job)
    (stage : Stage) : Keeps (DiffersIn ps) (Roster.createUnit r name job stage) := by
  refine Play.keeps_serve <| .bind (fun t p => ?_) fun _ => .bind (calculate _) fun _ =>
    .bind game fun _ => .bind (changeUnits h _ (·.houses)) fun _ => .pure _
  cases p <;> first | exact .inr rfl | exact .inl hnumber

theorem killUnit (hunits : .units ∈ ps) (hpiles : .piles ∈ ps) (hplay : .playArea ∈ ps)
    (m : Member) : Keeps (DiffersIn ps) (Roster.killUnit r m) := by
  have hbury (u : Resident) : Keeps (DiffersIn ps) (do
      Play.changeZones (·.withoutOwner u.unitId)
      Play.changeGame fun g => { g with residents := g.residents.erase u }) :=
    .bind (changeZones hpiles hplay _) fun _ => changeUnits hunits _ (·.houses)
  refine Play.keeps_serve (.bind game fun g => ?_)
  dsimp only
  split
  · exact hbury _
  · exact .bind (.map (leaveHouse hunits m) _) hbury

theorem requestFreePromotion (h : .promises ∈ ps) (m : Member) :
    Keeps (DiffersIn ps) (Roster.requestFreePromotion r m) := by
  refine Play.keeps_serve (.bind game fun g => ?_)
  dsimp only
  split
  · refine .bind (fun t p => ?_) fun _ => .pure _
    cases p <;> first | exact .inr rfl | exact .inl h
  · exact .pure _

theorem setPromotionLevel (h : .units ∈ ps) (m : Member) (level : Int) :
    Keeps (DiffersIn ps) (Roster.setPromotionLevel r m level) :=
  Play.keeps_serve <| .bind game fun _ => .bind (store h _ _) fun _ => .bind (calculate _) fun _ =>
    store h _ _

/-- What is done with a picked unit is done after the pick, which throws the dice, and nothing is
done if there is no unit to pick. -/
theorem pickUnit_bind (h : .dice ∈ ps) {p : Resident → Bool}
    {f : Option (Resident × Nat) → Play α} {result : α} (hnone : f none = pure result)
    (hsome : ∀ picked, Keeps (DiffersIn ps) (f (some picked))) :
    Keeps (DiffersIn ps) (Assignment.pickUnit p >>= f) := by
  refine .bind (.bind game fun _ => keeps_of_rolled h (Rolled.throwDice _)) fun picked => ?_
  cases picked with
  | none => exact hnone ▸ .pure result
  | some picked => exact hsome picked

end Table.DiffersIn

/-- The parts that effects of a kind may change. -/
def EffectKind.changes (kind : EffectKind) : List Part :=
  [.turn, .gold, .actions, .piles, .playArea, .boosts, .units, .scheduled, .multiplier, .bonus,
    .pollution, .discount, .promises, .dice, .cardNumbers, .unitNumbers, .effectNumbers].filter
      (kind ∈ ·.changedBy)

theorem EffectKind.mem_changes_iff {kind : EffectKind} {p : Part} :
    p ∈ kind.changes ↔ kind ∈ p.changedBy := by
  rw [changes, List.mem_filter, decide_eq_true_iff]
  refine and_iff_right_of_imp fun _ => ?_
  cases p <;> decide

/-- An effect changes the parts that effects of its kind change, whether or not it fails. -/
theorem Table.DiffersIn.executeKind (a : Assignment) (r : Rules) (kind : EffectKind) :
    Keeps (DiffersIn kind.changes) (a.executeKind r kind) := by
  -- Each kind is opened here once, and the parts that it names are looked up among the changes.
  cases kind with
  | addAction => exact .bind (addActions (by decide) _) fun _ => .pure _
  | addGold => exact .bind (apply (by decide) _) fun _ => .pure _
  | goldMultiplier => exact multiplyGold (by decide) a
  | goldBonus => exact .bind (addBonus (by decide) _) fun _ => .pure _
  | gamble => exact gamble (by decide) (by decide) a
  | spendGoldPercent => exact spendGoldPercent (by decide) a
  | promotionDiscount => exact discountPromotions (by decide) a
  | ignorePollution => exact ignorePollution (by decide) a
  | delayedGold | persistentGold | persistentMaintenance | maintenanceModifier =>
    exact schedule (by decide) (by decide) a _ _
  | drawCard =>
    exact .bind (draw (by decide) (by decide) _) fun _ => .pure _
  | drawUntil =>
    exact .bind game fun _ => .ite (.pure _) <|
      .bind (draw (by decide) (by decide) _) fun _ => .pure _
  | shuffleDeck =>
    exact .bind (shuffle (by decide) (by decide)) fun _ => .pure _
  | destroyCard =>
    exact .bind (destroyAll (by decide) (by decide) _) fun _ => .pure _
  | destroyPollution =>
    exact .bind game fun _ =>
      .bind (destroyAll (by decide) (by decide) _) fun _ => .pure _
  | settleCard => exact settle (by decide) (by decide) a
  | moveToDeckBottom => exact moveToDeckBottom (by decide) a
  | revealAndGain => exact revealAndGain (by decide) a
  | removeCardFromDeck => exact removeCardFromDeck (by decide) a
  | createTempTreasure => exact createTreasure (by decide) (by decide) a
  | addCardToDeck =>
    exact .ite (.pure _) <|
      .bind (addCopies (by decide) (by decide) _ _) fun _ => .pure _
  | permanentUpgrade =>
    exact .bind (fun t => upgraded (by decide) (by decide) a.targets t)
      fun _ => .pure _
  | upgradeCardInDeck => exact upgradeCardInDeck (by decide) (by decide) a
  | boostTreasure => exact boostTreasure (by decide) a
  | gainUnit =>
    exact .bind game fun _ => .bind (createUnit (by decide) (by decide) _ _ _)
      fun _ => .bind (.map (autoPlace (by decide) _) _) fun _ => .pure _
  | removeUnit =>
    exact pickUnit_bind (by decide) rfl fun _ =>
      .bind (killUnit (by decide) (by decide) (by decide) _)
        fun _ => .pure _
  | freePromotion =>
    exact pickUnit_bind (by decide) rfl fun _ =>
      .bind (requestFreePromotion (by decide) _) fun _ => .pure _
  | addPromotionLevel =>
    exact pickUnit_bind (by decide) rfl fun _ =>
      .bind (setPromotionLevel (by decide) _ _) fun _ => .pure _

/-- A part that effects of a kind do not change is the same after them. -/
theorem Part.Same.executeKind {p : Part} {kind : EffectKind} (h : kind ∉ p.changedBy)
    (a : Assignment) (r : Rules) (t : Table) : p.Same t (exec (a.executeKind r kind) t).2 :=
  (Table.DiffersIn.executeKind a r kind t p).resolve_left (mt EffectKind.mem_changes_iff.mp h)

end Treasury
