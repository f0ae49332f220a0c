import WitcherMP.Lib.FirstMatch
import Mathlib.Algebra.Order.Field.Rat

/-! The alchemy of the scripts: recipes are learned, and a player who has what a recipe wants crafts its
item, as long as the toxicity that all players share allows it. The inventory belongs to the game, which
says whether it did what it is asked for; the scripts do not listen. The list of ingredients, names,
durations and intensities, which crafting does not read, and log lines are left out. -/

namespace WitcherMP.Alchemy
open FirstMatch

inductive AlchemyItemType
  | none | potion | bomb | oil | decoction | ingredient
deriving DecidableEq

inductive PotionType
  | none | swallow | thunderbolt | petriPhilter | cat | tawnyOwl | whiteHoney | goldenOriel
  | mariborForest | blizzard | fullMoon
deriving DecidableEq

inductive BombType
  | none | dancingStar | grapeshot | samum | northernWind | dragonDream | devilPuffball | moonDust
deriving DecidableEq

inductive OilType
  | none | beastOil | cursedOil | draconidOil | elementaOil | hangedMansVenom | hybridOil
  | insectoidOil | necrophageOil | ogroidOil | relictOil | specterOil | vampireOil
deriving DecidableEq

/-- Ingredients and their counts are pushed together. -/
structure AlchemyRecipe where
  id : String
  itemType : AlchemyItemType
  potionType : PotionType := .none
  bombType : BombType := .none
  oilType : OilType := .none
  ingredients : List (String × ℤ) := []
  toxicity : ℚ := 0
  isKnown : Bool := false
deriving DecidableEq

namespace AlchemyRecipe

def addIngredient (r : AlchemyRecipe) (ingredient : String) (count : ℤ) : AlchemyRecipe :=
  { r with ingredients := r.ingredients ++ [(ingredient, count)] }

def setPotionProperties (r : AlchemyRecipe) (potion : PotionType) (tox : ℚ) : AlchemyRecipe :=
  { r with potionType := potion, toxicity := tox }

def setBombProperties (r : AlchemyRecipe) (bomb : BombType) (tox : ℚ) : AlchemyRecipe :=
  { r with bombType := bomb, toxicity := tox }

def setOilProperties (r : AlchemyRecipe) (oil : OilType) (tox : ℚ) : AlchemyRecipe :=
  { r with oilType := oil, toxicity := tox }

def getPotionId : PotionType → String
  | .swallow => "potion_swallow"
  | .thunderbolt => "potion_thunderbolt"
  | .cat => "potion_cat"
  | .whiteHoney => "potion_white_honey"
  | _ => "potion_unknown"

def getBombId : BombType → String
  | .dancingStar => "bomb_dancing_star"
  | .grapeshot => "bomb_grapeshot"
  | .northernWind => "bomb_northern_wind"
  | _ => "bomb_unknown"

def getOilId : OilType → String
  | .beastOil => "oil_beast"
  | .draconidOil => "oil_draconid"
  | .vampireOil => "oil_vampire"
  | _ => "oil_unknown"

def item (r : AlchemyRecipe) : Option String :=
  match r.itemType with
  | .potion => some (getPotionId r.potionType)
  | .bomb => some (getBombId r.bombType)
  | .oil => some (getOilId r.oilType)
  | _ => none

end AlchemyRecipe

open AlchemyRecipe

def recipe (id : String) (itemType : AlchemyItemType) (second third : String) : AlchemyRecipe :=
  ((({ id := id, itemType := itemType } : AlchemyRecipe).addIngredient "dwarven_spirit" 1).addIngredient
    second 1).addIngredient third 1

def potionRecipes : List AlchemyRecipe :=
  [(recipe "swallow_recipe" .potion "arnica" "drowner_brain").setPotionProperties .swallow 20,
    (recipe "thunderbolt_recipe" .potion "bryonia" "han").setPotionProperties .thunderbolt 30,
    (recipe "cat_recipe" .potion "celandine" "fool_parsley").setPotionProperties .cat 15,
    (recipe "white_honey_recipe" .potion "honeysuckle" "white_myrtle_petals").setPotionProperties
      .whiteHoney 0]

def bombRecipes : List AlchemyRecipe :=
  [(recipe "dancing_star_recipe" .bomb "arnica" "beggartick_blossoms").setBombProperties .dancingStar 0,
    (recipe "grapeshot_recipe" .bomb "bryonia" "rennet").setBombProperties .grapeshot 0,
    (recipe "northern_wind_recipe" .bomb "balisse_fruit" "white_myrtle_petals").setBombProperties
      .northernWind 0]

def oilRecipes : List AlchemyRecipe :=
  [(recipe "beast_oil_recipe" .oil "arnica" "ribleaf").setOilProperties .beastOil 0,
    (recipe "draconid_oil_recipe" .oil "bryonia" "mistletoe").setOilProperties .draconidOil 0,
    (recipe "vampire_oil_recipe" .oil "han" "wolfsbane").setOilProperties .vampireOil 0]

def allRecipes : List AlchemyRecipe := potionRecipes ++ bombRecipes ++ oilRecipes

/-- The inventory of the game, of which nothing is assumed. A call says whether it was carried out. -/
structure InventorySystem (P I : Type*) where
  isDefined : Bool
  getItemCount : I → P → String → ℤ
  removeItem : I → P → String → ℤ → Bool × I
  addItem : I → P → String → ℤ → Bool × I

structure AlchemySystem (I : Type*) where
  recipes : List AlchemyRecipe := []
  playerToxicity : ℚ := 0
  maxToxicity : ℚ := 0
  isInitialized : Bool := false
  inventory : I

namespace AlchemySystem
variable {P I : Type*}

def initializeSystem (s : AlchemySystem I) : AlchemySystem I :=
  if s.isInitialized then s
  else
    { s with
      playerToxicity := 0
      maxToxicity := 100
      recipes := s.recipes ++ allRecipes
      isInitialized := true }

def getRecipe (s : AlchemySystem I) (recipeId : String) : Option AlchemyRecipe :=
  s.recipes.find? fun recipe => recipe.id = recipeId

def learnRecipe (s : AlchemySystem I) (recipeId : String) : AlchemySystem I :=
  { s with
    recipes := modifyFirst (fun recipe => recipe.id = recipeId)
      (fun recipe => { recipe with isKnown := true }) s.recipes }

def reduceToxicity (s : AlchemySystem I) (amount : ℚ) : AlchemySystem I :=
  { s with playerToxicity := max 0 (s.playerToxicity - amount) }

section Calls
variable (game : InventorySystem P I)

def hasRequiredIngredients (s : AlchemySystem I) (player : P) (recipe : AlchemyRecipe) : Bool :=
  game.isDefined && recipe.ingredients.all fun e => ¬ game.getItemCount s.inventory player e.1 < e.2

def consumeIngredients (s : AlchemySystem I) (player : P) (recipe : AlchemyRecipe) : AlchemySystem I :=
  if ¬ game.isDefined then s
  else
    { s with
      inventory := recipe.ingredients.foldl (fun i e => (game.removeItem i player e.1 e.2).2)
        s.inventory }

def createAlchemyItem (s : AlchemySystem I) (player : P) (recipe : AlchemyRecipe) : AlchemySystem I :=
  if ¬ game.isDefined then s
  else
    match recipe.item with
    | some item => { s with inventory := (game.addItem s.inventory player item 1).2 }
    | none => s

def craftItem (s : AlchemySystem I) (player : P) (recipeId : String) : Bool × AlchemySystem I :=
  match s.getRecipe recipeId with
  | none => (false, s)
  | some recipe =>
    if ¬ recipe.isKnown then (false, s)
    else if ¬ s.hasRequiredIngredients game player recipe then (false, s)
    else if s.playerToxicity + recipe.toxicity > s.maxToxicity then (false, s)
    else
      let s := s.consumeIngredients game player recipe
      let s := { s with playerToxicity := s.playerToxicity + recipe.toxicity }
      (true, s.createAlchemyItem game player recipe)

inductive Op (P : Type*)
  | initializeSystem
  | craftItem (player : P) (recipeId : String)
  | learnRecipe (recipeId : String)
  | reduceToxicity (amount : ℚ)
  /-- The game gives a player something. -/
  | addItem (player : P) (item : String) (count : ℤ)

def step (s : AlchemySystem I) : Op P → AlchemySystem I
  | .initializeSystem => s.initializeSystem
  | .craftItem player recipeId => (s.craftItem game player recipeId).2
  | .learnRecipe recipeId => s.learnRecipe recipeId
  | .reduceToxicity amount => s.reduceToxicity amount
  | .addItem player item count =>
    { s with inventory := (game.addItem s.inventory player item count).2 }

end Calls
end AlchemySystem
end WitcherMP.Alchemy
