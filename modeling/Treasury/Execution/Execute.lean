import Treasury.Execution.Gold
import Treasury.Execution.Household
import Treasury.Execution.Pile
import Treasury.Execution.Treasure

/-!
# Carrying effects out

`Assignment.execute` carries an effect out by its kind. An effect of an unknown kind fails and
changes nothing.
-/

namespace Treasury.Assignment

/-- Carries an effect of a known kind out. -/
def executeKind (a : Assignment) (r : Rules) : EffectKind → Play EffectResult
  | .drawCard => a.drawCard r
  | .addAction => a.addAction r
  | .addGold => a.addGold r
  | .createTempTreasure => a.createTreasure r
  | .boostTreasure => a.boostTreasure r
  | .permanentUpgrade => a.upgradeTreasure r
  | .settleCard => a.settle r
  | .goldMultiplier => a.multiplyGold r
  | .goldBonus => a.addGoldBonus r
  | .destroyCard => a.destroyCard r
  | .destroyPollution => a.destroyPollution r
  | .moveToDeckBottom => a.moveToDeckBottom r
  | .shuffleDeck => a.shuffleDeck r
  | .gamble => a.gamble r
  | .revealAndGain => a.revealAndGain r
  | .delayedGold => a.schedule .delayedGold 1
  | .persistentGold => a.schedule .goldPerTurn 1
  | .persistentMaintenance => a.schedule .maintenanceIncrease 1
  | .drawUntil => a.drawUntil r
  | .ignorePollution => a.ignorePollution
  | .gainUnit => a.gainUnit r
  | .removeUnit => a.removeUnit r
  | .freePromotion => a.freePromotion r
  | .addPromotionLevel => a.addPromotionLevel r
  | .addCardToDeck => a.addCardToDeck r
  | .removeCardFromDeck => a.removeCardFromDeck r
  | .upgradeCardInDeck => a.upgradeCardInDeck
  | .spendGoldPercent => a.spendGoldPercent r
  | .promotionDiscount => a.discountPromotions
  | .maintenanceModifier => a.schedule .maintenanceIncrease 3

/-- Carries an effect out. -/
def execute (a : Assignment) (r : Rules) : Play EffectResult :=
  match a.effect.kind with
  | .known kind => a.executeKind r kind
  | .other .. => return a.failed

/-- An effect of a known kind is carried out as effects of that kind are. -/
theorem execute_of_known {a : Assignment} {kind : EffectKind} (h : a.effect.kind = .known kind)
    (r : Rules) : a.execute r = a.executeKind r kind := by
  simp [execute, h]

/-- An effect of an unknown kind fails and changes nothing. -/
theorem execute_of_unknown {a : Assignment} {word : String}
    {hword : Vocabulary.ofName? (α := EffectKind) word = none}
    (h : a.effect.kind = .other word hword) (r : Rules) : a.execute r = pure a.failed := by
  simp [execute, h]

end Treasury.Assignment
