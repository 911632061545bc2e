import Treasury.Vocabulary

/-!
# Kinds of effects, targets, conditions and value sources

The vocabularies that effect definitions are written in.
-/

namespace Treasury

/-- What an effect does. -/
inductive EffectKind where
  | drawCard
  | addAction
  | addGold
  | createTempTreasure
  | boostTreasure
  | permanentUpgrade
  | settleCard
  | goldMultiplier
  | goldBonus
  | destroyCard
  | destroyPollution
  | moveToDeckBottom
  | shuffleDeck
  | gamble
  | revealAndGain
  | delayedGold
  | persistentGold
  | persistentMaintenance
  | drawUntil
  | ignorePollution
  | gainUnit
  | removeUnit
  | freePromotion
  | addPromotionLevel
  | addCardToDeck
  | removeCardFromDeck
  | upgradeCardInDeck
  | spendGoldPercent
  | promotionDiscount
  | maintenanceModifier
  deriving DecidableEq, Repr, Inhabited

instance : Vocabulary EffectKind where
  all := [.drawCard, .addAction, .addGold, .createTempTreasure, .boostTreasure, .permanentUpgrade,
    .settleCard, .goldMultiplier, .goldBonus, .destroyCard, .destroyPollution, .moveToDeckBottom,
    .shuffleDeck, .gamble, .revealAndGain, .delayedGold, .persistentGold, .persistentMaintenance,
    .drawUntil, .ignorePollution, .gainUnit, .removeUnit, .freePromotion, .addPromotionLevel,
    .addCardToDeck, .removeCardFromDeck, .upgradeCardInDeck, .spendGoldPercent, .promotionDiscount,
    .maintenanceModifier]
  name
    | .drawCard => "draw_card"
    | .addAction => "add_action"
    | .addGold => "add_gold"
    | .createTempTreasure => "create_temp_treasure"
    | .boostTreasure => "boost_treasure"
    | .permanentUpgrade => "permanent_upgrade"
    | .settleCard => "settle_card"
    | .goldMultiplier => "gold_multiplier"
    | .goldBonus => "gold_bonus"
    | .destroyCard => "destroy_card"
    | .destroyPollution => "destroy_pollution"
    | .moveToDeckBottom => "move_to_deck_bottom"
    | .shuffleDeck => "shuffle_deck"
    | .gamble => "gamble"
    | .revealAndGain => "reveal_and_gain"
    | .delayedGold => "delayed_gold"
    | .persistentGold => "persistent_gold"
    | .persistentMaintenance => "persistent_maintenance"
    | .drawUntil => "draw_until"
    | .ignorePollution => "ignore_pollution"
    | .gainUnit => "gain_unit"
    | .removeUnit => "remove_unit"
    | .freePromotion => "free_promotion"
    | .addPromotionLevel => "add_promotion_level"
    | .addCardToDeck => "add_card_to_deck"
    | .removeCardFromDeck => "remove_card_from_deck"
    | .upgradeCardInDeck => "upgrade_card_in_deck"
    | .spendGoldPercent => "spend_gold_percent"
    | .promotionDiscount => "promotion_discount"
    | .maintenanceModifier => "maintenance_modifier"

/-- Which cards an effect acts on. -/
inductive TargetKind where
  /-- No card. -/
  | none
  /-- The card being played. -/
  | self
  /-- Hand cards that the player picks. -/
  | handCard
  /-- Treasures in hand that the player picks. -/
  | handTreasure
  /-- Pollution cards in hand that the player picks. -/
  | handPollution
  /-- Action cards in hand that the player picks. -/
  | handAction
  /-- Every treasure in hand. -/
  | allHandTreasure
  /-- Every pollution card in hand. -/
  | allHandPollution
  /-- The top card of the deck. -/
  | deckTop
  /-- Hand cards picked at random. -/
  | random
  deriving DecidableEq, Repr, Inhabited

instance : Vocabulary TargetKind where
  all := [.none, .self, .handCard, .handTreasure, .handPollution, .handAction, .allHandTreasure,
    .allHandPollution, .deckTop, .random]
  name
    | .none => "none"
    | .self => "self"
    | .handCard => "hand_card"
    | .handTreasure => "hand_treasure"
    | .handPollution => "hand_pollution"
    | .handAction => "hand_action"
    | .allHandTreasure => "all_hand_treasure"
    | .allHandPollution => "all_hand_pollution"
    | .deckTop => "deck_top"
    | .random => "random"

/-- What a condition looks at. -/
inductive ConditionKind where
  /-- Nothing: the condition always holds. -/
  | none
  | goldAbove
  | goldBelow
  | handHasTreasure
  | handHasPollution
  | handHasAction
  | handCountAbove
  | handCountBelow
  | deckTopIsTreasure
  | deckTopIsPollution
  | deckTopIsAction
  | deckNotEmpty
  | hasUnit
  | hasMultipleUnits
  | hasPromotableUnit
  | previousEffectSucceeded
  | previousCountAbove
  | hasCopperInDeck
  | hasPollutionInDeck
  | hasSpecificCardInDeck
  deriving DecidableEq, Repr, Inhabited

instance : Vocabulary ConditionKind where
  all := [.none, .goldAbove, .goldBelow, .handHasTreasure, .handHasPollution, .handHasAction,
    .handCountAbove, .handCountBelow, .deckTopIsTreasure, .deckTopIsPollution, .deckTopIsAction,
    .deckNotEmpty, .hasUnit, .hasMultipleUnits, .hasPromotableUnit, .previousEffectSucceeded,
    .previousCountAbove, .hasCopperInDeck, .hasPollutionInDeck, .hasSpecificCardInDeck]
  name
    | .none => "none"
    | .goldAbove => "gold_above"
    | .goldBelow => "gold_below"
    | .handHasTreasure => "hand_has_treasure"
    | .handHasPollution => "hand_has_pollution"
    | .handHasAction => "hand_has_action"
    | .handCountAbove => "hand_count_above"
    | .handCountBelow => "hand_count_below"
    | .deckTopIsTreasure => "deck_top_is_treasure"
    | .deckTopIsPollution => "deck_top_is_pollution"
    | .deckTopIsAction => "deck_top_is_action"
    | .deckNotEmpty => "deck_not_empty"
    | .hasUnit => "has_unit"
    | .hasMultipleUnits => "has_multiple_units"
    | .hasPromotableUnit => "has_promotable_unit"
    | .previousEffectSucceeded => "previous_effect_succeeded"
    | .previousCountAbove => "previous_count_above"
    | .hasCopperInDeck => "has_copper_in_deck"
    | .hasPollutionInDeck => "has_pollution_in_deck"
    | .hasSpecificCardInDeck => "has_specific_card_in_deck"

/-- Where a computed magnitude comes from. -/
inductive SourceKind where
  /-- The base of the source. -/
  | fixed
  /-- The count of the previous result. -/
  | previousCount
  /-- The value of the previous result. -/
  | previousValue
  /-- The gold held. -/
  | currentGold
  /-- A percentage of the gold held. -/
  | currentGoldPercent
  /-- The number of hand cards. -/
  | handCount
  /-- The number of cards in the deck. -/
  | deckCount
  /-- The number of units. -/
  | unitCount
  /-- The gold value of the top card of the deck. -/
  | deckTopGoldValue
  /-- The gold value of the targets. -/
  | targetGoldValue
  /-- A random number between two bounds. -/
  | randomRange
  /-- The roll of a die. -/
  | randomDice
  deriving DecidableEq, Repr, Inhabited

instance : Vocabulary SourceKind where
  all := [.fixed, .previousCount, .previousValue, .currentGold, .currentGoldPercent, .handCount,
    .deckCount, .unitCount, .deckTopGoldValue, .targetGoldValue, .randomRange, .randomDice]
  name
    | .fixed => "fixed"
    | .previousCount => "previous_count"
    | .previousValue => "previous_value"
    | .currentGold => "current_gold"
    | .currentGoldPercent => "current_gold_percent"
    | .handCount => "hand_count"
    | .deckCount => "deck_count"
    | .unitCount => "unit_count"
    | .deckTopGoldValue => "deck_top_gold_value"
    | .targetGoldValue => "target_gold_value"
    | .randomRange => "random_range"
    | .randomDice => "random_dice"

end Treasury
