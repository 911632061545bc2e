import Treasury.Proofs.Execution.Exchange
import Treasury.Proofs.Execution.Moving

/-!
# Effects let a game evolve

Every effect, whatever its kind, magnitude and targets, moves and removes cards and makes new copies
and does nothing else to the identity of cards (`Table.Evolves.execute`). Of the effects that make
no cards there is nothing more to say than `Table.Moves` does; those that make some are gone through
here.
-/

namespace Treasury

/-- The game on the table evolves. -/
def Table.Evolves (outside : List Card) (t u : Table) : Prop := t.game.Evolves outside u.game

namespace Table.Evolves

variable {outside : List Card} {r : Rules} {α : Type}

instance : IsPreorder Table (Table.Evolves outside) where
  refl t := Std.Refl.refl (r := GameState.Evolves outside) t.game
  trans t u v h k := IsTrans.trans (r := GameState.Evolves outside) t.game u.game v.game h k

theorem makeFromGame {f : GameState → α × GameState}
    (h : ∀ g : GameState, g.Evolves outside (f g).2) :
    Keeps (Table.Evolves outside) (Play.makeFromGame f) := fun t => h t.game

/-- What makes no cards lets the game evolve. -/
theorem keeps_of_moves {x : Play α} (h : Keeps (Moves outside) x) :
    Keeps (Table.Evolves outside) x :=
  h.mono fun _ _ hmoves => .of_moves hmoves.zones hmoves.instances.ge hmoves.copies.ge

/-! ## Making cards -/

theorem addToHand (cardId : String) (temporary : Bool) :
    Keeps (Table.Evolves outside) (Deck.addToHand r cardId temporary) :=
  Play.keeps_serve fun t => GameState.Evolves.of_newCard cardId temporary none
    (t.game.zones.ids_update_append .hand _).le fun _ hd => Zones.mem_update_append .hand hd

theorem addToDiscard (cardId : String) :
    Keeps (Table.Evolves outside) (Deck.addToDiscard r cardId) :=
  Play.keeps_serve fun t => GameState.Evolves.of_newCard cardId false none
    (t.game.zones.ids_update_append .discard _).le fun _ hd => Zones.mem_update_append .discard hd

theorem createTreasure (a : Assignment) : Keeps (Table.Evolves outside) (a.createTreasure r) := by
  unfold Assignment.createTreasure
  split
  · exact .pure _
  · exact .bind (.map (addToHand _ _) _) fun _ => .pure _

theorem addCopies (cardId : String) (n : Nat) :
    Keeps (Table.Evolves outside) (Assignment.addCopies r cardId n) := by
  induction n with
  | zero => exact .pure _
  | succ n ih => exact .bind (.map (addToDiscard _) _) fun _ => ih

theorem addCardToDeck (a : Assignment) : Keeps (Table.Evolves outside) (a.addCardToDeck r) :=
  .ite (.pure _) (.bind (addCopies _ _) fun _ => .pure _)

/-- Upgrades exchange cards in hand for new ones. -/
theorem upgraded (cs : List Card) (g : GameState) :
    g.Evolves outside (Assignment.upgraded r cs g).2 := by
  induction cs generalizing g with
  | nil => exact Std.Refl.refl (r := GameState.Evolves outside) g
  | cons c rest ih =>
    unfold Assignment.upgraded
    split
    · exact ih g
    · next grade _ =>
      split
      -- The copy of the better grade takes the place of the old one, so one id is new.
      · exact IsTrans.trans (r := GameState.Evolves outside) _ _ _
          (.exchanging outside g .hand c grade.cardId) (ih _)
      · exact ih g

theorem upgradeTreasure (a : Assignment) : Keeps (Table.Evolves outside) (a.upgradeTreasure r) :=
  .bind (makeFromGame fun g => upgraded a.targets g) fun _ => .pure _

theorem upgradeCardInDeck (a : Assignment) :
    Keeps (Table.Evolves outside) a.upgradeCardInDeck := by
  refine .bind (.of_fixed fun _ => rfl) fun g => ?_
  split
  · next upgrade zone c _ _ =>
    exact fun t => GameState.Evolves.exchanging outside t.game zone c upgrade
  · exact .pure _

/-! ## Every effect -/

/-- Whatever an effect does, the game evolves, and only the targets of the effect can come onto the
table from outside. -/
theorem execute (a : Assignment) (ha : ∀ c ∈ a.targets, c ∈ outside) :
    Keeps (Table.Evolves outside) (a.execute r) := by
  unfold Assignment.execute
  split
  · next kind _ =>
    cases kind
    case createTempTreasure => exact createTreasure a
    case permanentUpgrade => exact upgradeTreasure a
    case addCardToDeck => exact addCardToDeck a
    case upgradeCardInDeck => exact upgradeCardInDeck a
    -- All others make no cards.
    all_goals exact keeps_of_moves (Moves.executeKind a ha rfl)
  · exact .pure _

end Table.Evolves

end Treasury
