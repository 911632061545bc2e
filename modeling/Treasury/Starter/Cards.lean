import Treasury.Card.Catalog

/-!
# The starter game's cards and events

The definitions of a small game: the treasures of all seven grades, a card for each kind of
pollution, fourteen actions and nine events.
-/

namespace Treasury.Starter

open Numeric (Binary64)

/-- The name of the treasure of a grade. -/
def treasureName : Grade → String
  | .copper => "Copper"
  | .silver => "Silver"
  | .gold => "Gold Coin"
  | .emerald => "Emerald"
  | .sapphire => "Sapphire"
  | .ruby => "Ruby"
  | .diamond => "Diamond"

/-- The treasure of a grade. -/
def treasure (grade : Grade) : CardDefinition :=
  { id := grade.cardId, name := treasureName grade, kind := .treasure, grade := some grade }

/-- The name of a pollution card. -/
def pollutionName : Pollution → String
  | .debt => "Debt"
  | .curse => "Curse"
  | .disease => "Disease"
  | .damage => "Damage"

/-- The pollution card of a penalty. -/
def pollution (penalty : Pollution) : CardDefinition :=
  { id := Vocabulary.name penalty, name := pollutionName penalty, kind := .pollution,
    pollution := some penalty }

/-- An action card whose effects are unconditional. -/
def action (id name description job : String) (rarity : Rarity) (effects : List Effect) :
    CardDefinition :=
  { id, name, description, rarity, kind := .action, jobPools := [job],
    effects := [.always effects] }

/-- An action card that does one of two things. -/
def choosing (id name description job : String) (condition : Condition)
    (effects elseEffects : List Effect) : CardDefinition :=
  { id, name, description, kind := .action, jobPools := [job],
    effects := [.when [condition] effects elseEffects] }

/-- Lays picked treasures away and draws as many cards. -/
def smelting : CardDefinition :=
  action "smelting" "Smelting"
    "Settle any treasures in hand. Draw a card for each one settled." "pawn" .basic
    [.settle .handTreasure 0, .chained .drawCard .previousCount .one]

/-- Gains gold if there is much, and else draws. -/
def appraisal : CardDefinition :=
  choosing "appraisal" "Appraisal"
    "If you have 10 or more gold, +3 gold. Otherwise draw a card." "pawn"
    { kind := .known .goldAbove, value := 10 } [.gold 3] [.draw 1]

/-- Boosts a picked treasure by two grades. -/
def alchemy : CardDefinition :=
  action "alchemy" "Alchemy" "Raise one treasure in hand by two grades this turn." "bishop"
    .advanced
    [{ kind := .known .boostTreasure, value := 2, target := .handTreasure, maxTargets := 1 }]

/-- Upgrades a picked treasure for good. -/
def refine : CardDefinition :=
  action "refine" "Refine" "Permanently upgrade one treasure in hand." "bishop" .advanced
    [{ kind := .known .permanentUpgrade, target := .handTreasure, maxTargets := 1 }]

/-- Creates a silver for this turn. -/
def mint : CardDefinition :=
  action "mint" "Mint" "Create a temporary silver in hand." "pawn" .basic
    [{ kind := .known .createTempTreasure, createGrade := some Grade.silver.place }]

/-- Wins or loses gold. -/
def gamblersDen : CardDefinition :=
  action "gamblers_den" "Gambler's Den" "50%: +8 gold. Otherwise lose 2 gold." "knight" .basic
    [.gamble 50 (.fixed 8) (.fixed (-2))]

/-- Takes the treasures among the top cards. -/
def prospecting : CardDefinition :=
  action "prospecting" "Prospecting"
    "Reveal the top 3 cards. Treasures go to hand, the rest are discarded." "knight" .basic
    [{ kind := .known .revealAndGain, value := 3 }]

/-- Destroys picked pollution cards. -/
def purify : CardDefinition :=
  action "purify" "Purify" "Destroy up to two pollution cards in hand." "bishop" .basic
    [{ kind := .known .destroyPollution, target := .handPollution, maxTargets := 2 }]

/-- Doubles the gold gained this turn. -/
def investment : CardDefinition :=
  action "investment" "Investment" "Double all gold gained this turn." "queen" .rare
    [{ kind := .known .goldMultiplier,
       dynamic := some { multiplier := .ofRatio false 2 1 } }]

/-- Adds actions and fills the hand up. -/
def rally : CardDefinition :=
  action "rally" "Rally" "+2 actions. Draw until you have 5 cards." "rook" .basic
    [{ kind := .known .addAction, value := 2 }, { kind := .known .drawUntil, value := 5 }]

/-- Gains a fifth of the gold held. -/
def tithe : CardDefinition :=
  action "tithe" "Tithe" "Gain 20% of your gold." "bishop" .basic
    [{ kind := .known .addGold,
       dynamic := some { kind := .known .currentGoldPercent, base := 20 } }]

/-- Gains gold on later turns. -/
def merchantGuild : CardDefinition :=
  action "merchant_guild" "Merchant Guild" "+2 gold at the start of each of the next 3 turns."
    "pawn" .advanced [{ kind := .known .persistentGold, value := 2, duration := 3 }]

/-- Gains what a die shows. -/
def windfall : CardDefinition :=
  action "windfall" "Windfall" "Roll a die and gain that much gold." "knight" .basic
    [{ kind := .known .addGold, dynamic := some { kind := .known .randomDice, base := 6 } }]

/-- Draws a treasure from the top of the deck, and else shuffles. -/
def foresight : CardDefinition :=
  choosing "foresight" "Foresight"
    "If the top card of your deck is a treasure, draw it. Otherwise shuffle your deck." "rook"
    { kind := .known .deckTopIsTreasure } [.draw 1] [{ kind := .known .shuffleDeck }]

/-- The action cards. -/
def actions : List CardDefinition :=
  [smelting, appraisal, alchemy, refine, mint, gamblersDen, prospecting, purify, investment, rally,
    tithe, merchantGuild, windfall, foresight]

/-- The cards: treasures by grade, pollution cards, actions. -/
def cards : List CardDefinition :=
  Grade.all.map treasure ++ Vocabulary.all.map pollution ++ actions

/-- A knight joins. -/
def wanderingKnight : EventDefinition where
  id := "wandering_knight"
  name := "Wandering Knight"
  description := "A knight offers to join your household."
  effects := [.always [{ kind := .known .gainUnit, cardId := some "knight" }]]

/-- Much gold attracts thieves. -/
def banditRaid : EventDefinition where
  id := "bandit_raid"
  name := "Bandit Raid"
  description := "Bandits take 30% of your gold."
  eventType := "negative"
  triggers := [{ kind := .known .goldAbove, value := 20 }]
  effects := [.always [{ kind := .known .spendGoldPercent, value := 30 }]]

/-- Two silvers are found. -/
def hiddenTreasure : EventDefinition where
  id := "hidden_treasure"
  name := "Hidden Treasure"
  description := "Two silvers are added to your discard pile."
  effects := [.always [
    { kind := .known .addCardToDeck, cardId := some Grade.silver.cardId, value := 2 }]]

/-- A pollution card goes. -/
def purifyingWind : EventDefinition where
  id := "purifying_wind"
  name := "Purifying Wind"
  description := "A pollution card is removed from your deck."
  triggers := [{ kind := .known .hasPollutionInDeck }]
  effects := [.always [{ kind := .known .removeCardFromDeck, value := 1 }]]

/-- A copper becomes a silver. -/
def artisanBlessing : EventDefinition where
  id := "artisan_blessing"
  name := "Artisan's Blessing"
  description := "A copper in your deck becomes silver."
  triggers := [{ kind := .known .hasCopperInDeck }]
  effects := [.always [{ kind := .known .upgradeCardInDeck, cardId := some Grade.copper.cardId }]]

/-- A unit may be promoted for free. -/
def inspiration : EventDefinition where
  id := "inspiration"
  name := "Inspiration"
  description := "One of your units may promote for free."
  triggers := [{ kind := .known .hasPromotableUnit }]
  effects := [.always [{ kind := .known .freePromotion }]]

/-- Promotions are cheaper. -/
def peddler : EventDefinition where
  id := "peddler"
  name := "Travelling Peddler"
  description := "Promotions cost 5 less this turn."
  effects := [.always [{ kind := .known .promotionDiscount, value := 5 }]]

/-- Upkeep rises for a while. -/
def famine : EventDefinition where
  id := "famine"
  name := "Famine"
  description := "Upkeep rises by 2 for three turns."
  eventType := "negative"
  effects := [.always [{ kind := .known .maintenanceModifier, value := 2 }]]

/-- A unit may be given for the strength of another. -/
def mysteriousAltar : EventDefinition where
  id := "mysterious_altar"
  name := "Mysterious Altar"
  description := "Sacrifice a unit to empower another."
  eventType := "choice"
  triggers := [{ kind := .known .hasUnit }]
  choices := [
    { id := "sacrifice"
      text := "Offer a unit at the altar"
      requirements := [{ kind := .known .hasMultipleUnits }]
      effects := [.always [{ kind := .known .removeUnit },
        { kind := .known .addPromotionLevel, value := 2 }]] },
    { id := "leave", text := "Walk away" }]

/-- The events. -/
def events : List EventDefinition :=
  [wanderingKnight, banditRaid, hiddenTreasure, purifyingWind, artisanBlessing, inspiration,
    peddler, famine, mysteriousAltar]

/-- The catalog of the starter game. -/
def catalog : Catalog where
  cards := cards
  events := events

end Treasury.Starter
