import WitcherMP.Inventory.Stock

/-! The item table the system is initialised with. -/

namespace WitcherMP.Inventory

def addWeapon (id : CName) (weight : ℚ) : ItemData := ⟨id, .weapon, weight, 1, true, []⟩

def addArmor (id : CName) (weight : ℚ) : ItemData := ⟨id, .armor, weight, 1, true, []⟩

def addConsumable (id : CName) (weight : ℚ) (stackSize : ℤ) : ItemData :=
  ⟨id, .consumable, weight, stackSize, false, []⟩

def addIngredient (id : CName) (weight : ℚ) (stackSize : ℤ) : ItemData :=
  ⟨id, .ingredient, weight, stackSize, false, []⟩

def addQuestItem (id : CName) (weight : ℚ) (stackSize : ℤ) : ItemData :=
  ⟨id, .quest, weight, stackSize, false, []⟩

def initializeWeapons : List ItemData :=
  [addWeapon "steel_sword_basic" 2, addWeapon "steel_sword_enhanced" (11 / 5),
   addWeapon "steel_sword_superior" (5 / 2), addWeapon "steel_sword_master" (14 / 5),
   addWeapon "steel_sword_legendary" 3, addWeapon "silver_sword_basic" (11 / 5),
   addWeapon "silver_sword_enhanced" (5 / 2), addWeapon "silver_sword_superior" (14 / 5),
   addWeapon "silver_sword_master" (16 / 5), addWeapon "silver_sword_legendary" (7 / 2),
   addWeapon "crossbow_basic" 3, addWeapon "crossbow_enhanced" (16 / 5),
   addWeapon "crossbow_superior" (7 / 2), addWeapon "dagger_basic" (1 / 2),
   addWeapon "dagger_enhanced" (3 / 5), addWeapon "dagger_superior" (7 / 10)]

def initializeArmor : List ItemData :=
  [addArmor "light_armor_basic" 4, addArmor "light_armor_enhanced" (9 / 2),
   addArmor "light_armor_superior" 5, addArmor "medium_armor_basic" 6,
   addArmor "medium_armor_enhanced" (13 / 2), addArmor "medium_armor_superior" 7,
   addArmor "heavy_armor_basic" 8, addArmor "heavy_armor_enhanced" (17 / 2),
   addArmor "heavy_armor_superior" 9, addArmor "witcher_armor_basic" (11 / 2),
   addArmor "witcher_armor_enhanced" 6, addArmor "witcher_armor_superior" (13 / 2),
   addArmor "witcher_armor_master" 7]

def initializeConsumables : List ItemData :=
  [addConsumable "potion_swallow" (1 / 10) 5, addConsumable "potion_thunderbolt" (1 / 10) 3,
   addConsumable "potion_cat" (1 / 10) 2, addConsumable "potion_white_honey" (1 / 10) 1,
   addConsumable "bomb_dancing_star" (1 / 2) 3, addConsumable "bomb_grapeshot" (2 / 5) 3,
   addConsumable "bomb_northern_wind" (3 / 5) 2, addConsumable "oil_beast" (1 / 10) 10,
   addConsumable "oil_draconid" (1 / 10) 8, addConsumable "oil_vampire" (1 / 10) 5,
   addConsumable "food_bread" (1 / 5) 20, addConsumable "food_cheese" (3 / 10) 15,
   addConsumable "food_meat" (1 / 2) 10]

def initializeIngredients : List ItemData :=
  [addIngredient "arnica" (1 / 20) 50, addIngredient "celandine" (1 / 20) 50,
   addIngredient "honeysuckle" (1 / 20) 50, addIngredient "ribleaf" (1 / 20) 50,
   addIngredient "drowner_brain" (1 / 5) 20, addIngredient "endrega_embryo" (3 / 10) 10,
   addIngredient "griffin_feather" (1 / 10) 5, addIngredient "dwarven_spirit" (1 / 10) 30,
   addIngredient "white_gull" (1 / 10) 10, addIngredient "alcohest" (1 / 10) 50]

def initializeQuestItems : List ItemData :=
  [addQuestItem "quest_letter" (1 / 10) 1, addQuestItem "quest_key" (1 / 5) 1,
   addQuestItem "quest_artifact" 1 1]

def initializeItemsDatabase : List ItemData :=
  initializeWeapons ++ initializeArmor ++ initializeConsumables ++ initializeIngredients ++
    initializeQuestItems

theorem validTable_initializeItemsDatabase : ValidTable initializeItemsDatabase := by
  constructor <;> decide +kernel

end WitcherMP.Inventory
