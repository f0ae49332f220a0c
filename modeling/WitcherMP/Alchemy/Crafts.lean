import WitcherMP.Alchemy.Defs
import WitcherMP.Lib.Run
import Mathlib.Algebra.BigOperators.Group.List.Basic
import Mathlib.Tactic.Linarith
import Mathlib.Tactic.Ring

/-! Runs of the alchemy: when a craft succeeds, what it asks of the inventory, and what comes of that. -/

namespace WitcherMP.Alchemy
open FirstMatch AlchemyRecipe

namespace AlchemySystem
variable {P I : Type*}

def crafted (game : InventorySystem P I) (s : AlchemySystem I) : Op P → Option (P × AlchemyRecipe)
  | .craftItem player recipeId =>
    if (s.craftItem game player recipeId).1 then (s.getRecipe recipeId).map fun recipe => (player, recipe)
    else none
  | _ => none

def learned : Op P → Option String
  | .learnRecipe recipeId => some recipeId
  | _ => none

def taught : List (Op P) → List String
  | [] => []
  | .initializeSystem :: ops => ops.filterMap learned
  | _ :: ops => taught ops

end AlchemySystem

inductive InventoryCall (P : Type*)
  | removeItem (player : P) (item : String) (count : ℤ)
  | addItem (player : P) (item : String) (count : ℤ)

namespace InventoryCall
variable {P I : Type*}

def apply (game : InventorySystem P I) (i : I) : InventoryCall P → Bool × I
  | .removeItem player item count => game.removeItem i player item count
  | .addItem player item count => game.addItem i player item count

def play (game : InventorySystem P I) (i : I) (c : InventoryCall P) : I := (c.apply game i).2

def turnedDown (game : InventorySystem P I) (i : I) (c : InventoryCall P) : Option (InventoryCall P) :=
  if (c.apply game i).1 then none else some c

def amount [DecidableEq P] (player : P) (item : String) : InventoryCall P → ℤ
  | .removeItem player' item' count => if player' = player ∧ item' = item then -count else 0
  | .addItem player' item' count => if player' = player ∧ item' = item then count else 0

end InventoryCall

namespace AlchemyRecipe

def calls {P : Type*} (r : AlchemyRecipe) (player : P) : List (InventoryCall P) :=
  r.ingredients.map (fun e => .removeItem player e.1 e.2) ++
    (r.item.map fun item => .addItem player item 1).toList

def known (ids : List String) (r : AlchemyRecipe) : AlchemyRecipe := { r with isKnown := r.id ∈ ids }

theorem nodup_ids : (allRecipes.map AlchemyRecipe.id).Nodup := by decide +kernel

end AlchemyRecipe

/-- A call is carried out whole or not at all, and says which. -/
structure InventorySystem.Settles {P I : Type*} [DecidableEq P] (game : InventorySystem P I) : Prop where
  carriedOut : ∀ i (c : InventoryCall P), (c.apply game i).1 = true → ∀ player item,
    game.getItemCount (c.play game i) player item =
      game.getItemCount i player item + c.amount player item
  refused : ∀ i (c : InventoryCall P), (c.apply game i).1 = false → ∀ player item,
    game.getItemCount (c.play game i) player item = game.getItemCount i player item

def InventorySystem.piles {P : Type*} [DecidableEq P] (limit : ℤ) :
    InventorySystem P (P → String → ℤ) where
  isDefined := true
  getItemCount i player item := i player item
  removeItem i player item count :=
    if i player item < count then (false, i)
    else (true, fun player' item' =>
      i player' item' - if player = player' ∧ item = item' then count else 0)
  addItem i player item count :=
    if limit < i player item + count then (false, i)
    else (true, fun player' item' =>
      i player' item' + if player = player' ∧ item = item' then count else 0)

namespace AlchemySystem
variable {P I : Type*} {game : InventorySystem P I} {s : AlchemySystem I} {ids : List String}
  {player : P}

structure Taught (ids : List String) (s : AlchemySystem I) : Prop where
  isInitialized : s.isInitialized = true
  maxToxicity : s.maxToxicity = 100
  recipes : s.recipes = allRecipes.map (known ids)

structure Untaught (s : AlchemySystem I) : Prop where
  isInitialized : s.isInitialized = false
  recipes : s.recipes = []

theorem Taught.getRecipe (h : Taught ids s) (recipeId : String) :
    s.getRecipe recipeId = (allRecipes.find? fun r => r.id = recipeId).map (known ids) := by
  rw [AlchemySystem.getRecipe, h.recipes, List.find?_map]
  rfl

theorem Taught.learnRecipe (h : Taught ids s) (recipeId : String) :
    Taught (ids ++ [recipeId]) (s.learnRecipe recipeId) := by
  refine ⟨h.isInitialized, h.maxToxicity, ?_⟩
  have hids : (allRecipes.map (known ids)).map AlchemyRecipe.id = allRecipes.map AlchemyRecipe.id := by
    rw [List.map_map]
    rfl
  rw [AlchemySystem.learnRecipe, h.recipes]
  dsimp only
  rw [modifyFirst_eq_map (hids ▸ nodup_ids), List.map_map]
  refine List.map_congr_left fun r _ => ?_
  rw [Function.comp, known, known]
  by_cases hr : r.id = recipeId
  · rw [if_pos hr]
    simp [hr]
  · rw [if_neg hr]
    simp [hr]

structure Allowed (game : InventorySystem P I) (s : AlchemySystem I) (player : P)
    (r : AlchemyRecipe) : Prop where
  isKnown : r.isKnown = true
  isDefined : game.isDefined = true
  enough : ∀ e ∈ r.ingredients, e.2 ≤ game.getItemCount s.inventory player e.1
  toxicity : s.playerToxicity + r.toxicity ≤ s.maxToxicity

theorem hasRequiredIngredients_iff {r : AlchemyRecipe} :
    s.hasRequiredIngredients game player r = true ↔ game.isDefined = true ∧
      ∀ e ∈ r.ingredients, e.2 ≤ game.getItemCount s.inventory player e.1 := by
  rw [hasRequiredIngredients, Bool.and_eq_true, List.all_eq_true]
  refine and_congr_right fun _ => forall₂_congr fun e _ => ?_
  rw [decide_eq_true_eq, not_lt]

theorem createAlchemyItem_consumeIngredients (hdefined : game.isDefined = true) (r : AlchemyRecipe)
    (toxicity : ℚ) :
    createAlchemyItem game { s.consumeIngredients game player r with playerToxicity := toxicity } player r
      = { s with
          playerToxicity := toxicity
          inventory := Run.run (InventoryCall.play game) s.inventory (r.calls player) } := by
  have hremoved : (r.ingredients.foldl (fun i e => (game.removeItem i player e.1 e.2).2) s.inventory)
      = Run.run (InventoryCall.play game) s.inventory
        (r.ingredients.map fun e => .removeItem player e.1 e.2) := by
    rw [Run.run_eq_foldl, List.foldl_map]
    rfl
  rw [createAlchemyItem, if_neg (not_not.mpr hdefined), consumeIngredients,
    if_neg (not_not.mpr hdefined), hremoved, calls, Run.run_append]
  cases r.item <;> rfl

theorem craftItem_of_allowed {recipeId : String} {r : AlchemyRecipe}
    (hfound : s.getRecipe recipeId = some r) (hr : Allowed game s player r) :
    s.craftItem game player recipeId = (true, { s with
      playerToxicity := s.playerToxicity + r.toxicity
      inventory := Run.run (InventoryCall.play game) s.inventory (r.calls player) }) := by
  have hrequired : ¬ ¬ s.hasRequiredIngredients game player r = true :=
    not_not.mpr (hasRequiredIngredients_iff.mpr ⟨hr.isDefined, hr.enough⟩)
  have hkept : (s.consumeIngredients game player r).playerToxicity = s.playerToxicity := by
    rw [consumeIngredients]
    split <;> rfl
  rw [craftItem, hfound]
  dsimp only
  rw [if_neg (not_not.mpr hr.isKnown), if_neg hrequired, if_neg (not_lt.mpr hr.toxicity), hkept,
    createAlchemyItem_consumeIngredients hr.isDefined]

theorem craftItem_of_not_allowed {recipeId : String}
    (h : ∀ r, s.getRecipe recipeId = some r → ¬ Allowed game s player r) :
    s.craftItem game player recipeId = (false, s) := by
  rw [craftItem]
  cases hfound : s.getRecipe recipeId with
  | none => rfl
  | some r =>
    dsimp only
    by_cases hknown : r.isKnown = true
    · by_cases hrequired : s.hasRequiredIngredients game player r = true
      · by_cases htoxicity : s.playerToxicity + r.toxicity > s.maxToxicity
        · rw [if_neg (not_not.mpr hknown), if_neg (not_not.mpr hrequired), if_pos htoxicity]
        · obtain ⟨hdefined, henough⟩ := hasRequiredIngredients_iff.mp hrequired
          exact absurd ⟨hknown, hdefined, henough, not_lt.mp htoxicity⟩ (h r hfound)
      · rw [if_neg (not_not.mpr hknown), if_pos hrequired]
    · rw [if_pos hknown]

theorem craftItem_cases (game : InventorySystem P I) (s : AlchemySystem I) (player : P)
    (recipeId : String) :
    (∃ r, s.getRecipe recipeId = some r ∧ Allowed game s player r ∧
      crafted game s (.craftItem player recipeId) = some (player, r) ∧
      s.craftItem game player recipeId = (true, { s with
        playerToxicity := s.playerToxicity + r.toxicity
        inventory := Run.run (InventoryCall.play game) s.inventory (r.calls player) })) ∨
    ((∀ r, s.getRecipe recipeId = some r → ¬ Allowed game s player r) ∧
      crafted game s (.craftItem player recipeId) = none ∧
      s.craftItem game player recipeId = (false, s)) := by
  by_cases h : ∃ r, s.getRecipe recipeId = some r ∧ Allowed game s player r
  · obtain ⟨r, hfound, hr⟩ := h
    have hcraft := craftItem_of_allowed hfound hr
    refine .inl ⟨r, hfound, hr, ?_, hcraft⟩
    rw [crafted, hcraft, hfound]
    rfl
  · have hno : ∀ r, s.getRecipe recipeId = some r → ¬ Allowed game s player r :=
      fun r hfound hr => h ⟨r, hfound, hr⟩
    have hcraft := craftItem_of_not_allowed hno
    refine .inr ⟨hno, ?_, hcraft⟩
    rw [crafted, hcraft]
    rfl

theorem craftItem_iff (recipeId : String) : (s.craftItem game player recipeId).1 = true ↔
    ∃ r, s.getRecipe recipeId = some r ∧ Allowed game s player r := by
  obtain ⟨r, hfound, hr, -, hcraft⟩ | ⟨hno, -, hcraft⟩ := craftItem_cases game s player recipeId
  · rw [hcraft]
    exact iff_of_true rfl ⟨r, hfound, hr⟩
  · rw [hcraft]
    exact iff_of_false Bool.false_ne_true fun ⟨r, hfound, hr⟩ => hno r hfound hr

theorem Taught.allowed_iff (h : Taught ids s) (recipeId : String) :
    (∃ r, s.getRecipe recipeId = some r ∧ Allowed game s player r) ↔
      recipeId ∈ ids ∧ game.isDefined = true ∧ ∃ r ∈ allRecipes, r.id = recipeId ∧
        (∀ e ∈ r.ingredients, e.2 ≤ game.getItemCount s.inventory player e.1) ∧
        s.playerToxicity + r.toxicity ≤ 100 := by
  rw [h.getRecipe]
  constructor
  · rintro ⟨r', hfound, hr⟩
    obtain ⟨r, hfind, rfl⟩ := Option.map_eq_some_iff.mp hfound
    have hid : r.id = recipeId := by simpa using List.find?_some hfind
    have hlearned : r.id ∈ ids := of_decide_eq_true hr.isKnown
    exact ⟨hid ▸ hlearned, hr.isDefined, r, List.mem_of_find?_eq_some hfind, hid, hr.enough,
      h.maxToxicity ▸ hr.toxicity⟩
  · rintro ⟨hlearned, hdefined, r, hmem, hid, henough, htoxicity⟩
    obtain ⟨r', hfind⟩ : ∃ r', allRecipes.find? (fun r => r.id = recipeId) = some r' :=
      Option.isSome_iff_exists.mp (List.find?_isSome.mpr ⟨r, hmem, decide_eq_true hid⟩)
    have hid' : r'.id = recipeId := by simpa using List.find?_some hfind
    obtain rfl : r' = r := List.inj_on_of_nodup_map nodup_ids (List.mem_of_find?_eq_some hfind) hmem
      (hid'.trans hid.symm)
    exact ⟨r'.known ids, congrArg (Option.map (known ids)) hfind, decide_eq_true (hid ▸ hlearned), hdefined,
      henough, h.maxToxicity.symm ▸ htoxicity⟩

theorem filterMap_cons_toList {α β : Type*} (f : α → Option β) (a : α) (as : List α) :
    (a :: as).filterMap f = (f a).toList ++ as.filterMap f := by
  cases ha : f a with
  | none => exact List.filterMap_cons_none ha
  | some b => exact List.filterMap_cons_some ha

theorem Taught.step (h : Taught ids s) (op : Op P) :
    Taught (ids ++ (learned op).toList) (step game s op) := by
  have hquiet : ∀ {t : AlchemySystem I}, t.isInitialized = s.isInitialized →
      t.maxToxicity = s.maxToxicity → t.recipes = s.recipes → Taught (ids ++ []) t := by
    intro t hinit hmax hrecipes
    rw [List.append_nil]
    exact ⟨hinit.trans h.isInitialized, hmax.trans h.maxToxicity, hrecipes.trans h.recipes⟩
  cases op with
  | initializeSystem =>
    have hdone : s.initializeSystem = s := if_pos h.isInitialized
    exact hquiet (congrArg _ hdone) (congrArg _ hdone) (congrArg _ hdone)
  | craftItem player recipeId =>
    rw [AlchemySystem.step]
    obtain ⟨r, -, -, -, hcraft⟩ | ⟨-, -, hcraft⟩ := craftItem_cases game s player recipeId
    · rw [hcraft]
      exact hquiet rfl rfl rfl
    · rw [hcraft]
      exact hquiet rfl rfl rfl
  | learnRecipe recipeId => exact h.learnRecipe recipeId
  | reduceToxicity amount => exact hquiet rfl rfl rfl
  | addItem player item count => exact hquiet rfl rfl rfl

theorem Taught.run (h : Taught ids s) (ops : List (Op P)) :
    Taught (ids ++ ops.filterMap learned) (Run.run (AlchemySystem.step game) s ops) := by
  induction ops generalizing s ids with
  | nil => exact (List.append_nil ids).symm ▸ h
  | cons op ops ih =>
    rw [filterMap_cons_toList, ← List.append_assoc]
    exact ih (h.step op)

theorem Untaught.getRecipe (h : Untaught s) (recipeId : String) : s.getRecipe recipeId = none := by
  rw [AlchemySystem.getRecipe, h.recipes]
  rfl

theorem Untaught.initializeSystem (h : Untaught s) : Taught [] s.initializeSystem := by
  have hunknown : allRecipes = allRecipes.map (known []) := by decide +kernel
  have hopen : ¬ s.isInitialized = true := by simp [h.isInitialized]
  rw [AlchemySystem.initializeSystem, if_neg hopen, h.recipes]
  exact ⟨rfl, rfl, hunknown⟩

theorem Untaught.step (h : Untaught s) {op : Op P} (hop : op ≠ .initializeSystem) :
    Untaught (step game s op) := by
  cases op with
  | initializeSystem => exact absurd rfl hop
  | craftItem player recipeId =>
    have hno : ∀ r, s.getRecipe recipeId = some r → ¬ Allowed game s player r := by
      intro r hfound
      rw [h.getRecipe] at hfound
      cases hfound
    rw [AlchemySystem.step, craftItem_of_not_allowed hno]
    exact h
  | learnRecipe recipeId =>
    refine ⟨h.isInitialized, ?_⟩
    rw [AlchemySystem.step, learnRecipe, h.recipes]
    rfl
  | reduceToxicity amount => exact ⟨h.isInitialized, h.recipes⟩
  | addItem player item count => exact ⟨h.isInitialized, h.recipes⟩

theorem Untaught.run (h : Untaught s) (ops : List (Op P)) :
    (Untaught (Run.run (AlchemySystem.step game) s ops) ∧ taught ops = []) ∨
      Taught (taught ops) (Run.run (AlchemySystem.step game) s ops) := by
  induction ops generalizing s with
  | nil => exact .inl ⟨h, rfl⟩
  | cons op ops ih =>
    cases op with
    | initializeSystem => exact .inr (h.initializeSystem.run ops)
    | craftItem player recipeId => exact ih (h.step nofun)
    | learnRecipe recipeId => exact ih (h.step nofun)
    | reduceToxicity amount => exact ih (h.step nofun)
    | addItem player item count => exact ih (h.step nofun)

theorem mem_learned {ops : List (Op P)} {recipeId : String} :
    recipeId ∈ ops.filterMap learned ↔ .learnRecipe recipeId ∈ ops := by
  rw [List.mem_filterMap]
  constructor
  · rintro ⟨op, hop, hlearned⟩
    cases op with
    | learnRecipe recipeId' =>
      obtain rfl := Option.some.inj hlearned
      exact hop
    | _ => cases hlearned
  · exact fun hop => ⟨_, hop, rfl⟩

theorem mem_taught {ops : List (Op P)} {recipeId : String} :
    recipeId ∈ taught ops ↔ [.initializeSystem, .learnRecipe recipeId].Sublist ops := by
  induction ops with
  | nil => exact iff_of_false List.not_mem_nil (fun h => nomatch h)
  | cons op ops ih =>
    have hskip (hop : op ≠ .initializeSystem) :
        [.initializeSystem, .learnRecipe recipeId].Sublist (op :: ops) ↔
          [.initializeSystem, .learnRecipe recipeId].Sublist ops :=
      ⟨fun h => h.of_cons_of_ne hop.symm, fun h => h.cons op⟩
    cases op with
    | initializeSystem =>
      rw [taught, mem_learned, List.cons_sublist_cons, List.singleton_sublist]
    | craftItem player recipeId => exact ih.trans (hskip nofun).symm
    | learnRecipe recipeId => exact ih.trans (hskip nofun).symm
    | reduceToxicity amount => exact ih.trans (hskip nofun).symm
    | addItem player item count => exact ih.trans (hskip nofun).symm

def requests (game : InventorySystem P I) (s : AlchemySystem I) : Op P → List (InventoryCall P)
  | .addItem player item count => [.addItem player item count]
  | op => (crafted game s op).toList.flatMap fun c => c.2.calls c.1

theorem inventory_step (s : AlchemySystem I) (op : Op P) :
    (step game s op).inventory = Run.run (InventoryCall.play game) s.inventory (requests game s op) := by
  cases op with
  | initializeSystem =>
    rw [step, initializeSystem]
    split <;> rfl
  | craftItem player recipeId =>
    rw [step, requests]
    · obtain ⟨r, -, -, hcrafted, hcraft⟩ | ⟨-, hcrafted, hcraft⟩ :=
        craftItem_cases game s player recipeId
      · rw [hcraft, hcrafted]
        simp
      · rw [hcraft, hcrafted]
        rfl
    · exact nofun
  | learnRecipe recipeId => rfl
  | reduceToxicity amount => rfl
  | addItem player item count => rfl

theorem inventory_run (s : AlchemySystem I) (ops : List (Op P)) :
    (Run.run (step game) s ops).inventory =
      Run.run (InventoryCall.play game) s.inventory
        (Run.collect (step game) (requests game) s ops) := by
  induction ops generalizing s with
  | nil => rfl
  | cons op ops ih => rw [Run.run, ih, inventory_step, Run.collect, Run.run_append]

theorem crafted_of_taught (h : Taught ids s) {op : Op P} :
    ∀ c ∈ crafted game s op, ∃ r ∈ allRecipes, c.2 = r.known ids := by
  intro c hc
  cases op with
  | craftItem player recipeId =>
    obtain ⟨r, hfound, -, hcrafted, -⟩ | ⟨-, hcrafted, -⟩ := craftItem_cases game s player recipeId
    · rw [h.getRecipe] at hfound
      obtain ⟨r', hfind, rfl⟩ := Option.map_eq_some_iff.mp hfound
      rw [hcrafted] at hc
      obtain rfl := Option.some.inj hc
      exact ⟨r', List.mem_of_find?_eq_some hfind, rfl⟩
    · rw [hcrafted] at hc
      cases hc
  | _ => cases hc

theorem crafted_of_untaught (h : Untaught s) (op : Op P) : crafted game s op = none := by
  cases op with
  | craftItem player recipeId =>
    obtain ⟨r, hfound, -, -, -⟩ | ⟨-, hcrafted, -⟩ := craftItem_cases game s player recipeId
    · rw [h.getRecipe] at hfound
      cases hfound
    · exact hcrafted
  | _ => rfl

theorem crafts_of_table (h : Untaught s ∨ ∃ ids, Taught ids s) (ops : List (Op P)) :
    ∀ c ∈ Run.gather (step game) (crafted game) s ops, ∃ r ∈ allRecipes, ∃ ids, c.2 = r.known ids := by
  induction ops generalizing s with
  | nil => exact fun c hc => absurd hc List.not_mem_nil
  | cons op ops ih =>
    intro c hc
    have hnext : Untaught (step game s op) ∨ ∃ ids, Taught ids (step game s op) := by
      rcases h with h | ⟨ids, h⟩
      · cases op with
        | initializeSystem => exact .inr ⟨[], h.initializeSystem⟩
        | craftItem player recipeId => exact .inl (h.step nofun)
        | learnRecipe recipeId => exact .inl (h.step nofun)
        | reduceToxicity amount => exact .inl (h.step nofun)
        | addItem player item count => exact .inl (h.step nofun)
      · exact .inr ⟨_, h.step op⟩
    rcases List.mem_append.mp hc with hc | hc
    · rcases h with h | ⟨ids, h⟩
      · rw [crafted_of_untaught h] at hc
        cases hc
      · obtain ⟨r, hr, hsame⟩ := crafted_of_taught h c (Option.mem_toList.mp hc)
        exact ⟨r, hr, ids, hsame⟩
    · exact ih hnext c hc

end AlchemySystem

namespace InventoryCall
variable {P I : Type*} [DecidableEq P] {game : InventorySystem P I}

theorem getItemCount_run (h : game.Settles) (i : I) (cs : List (InventoryCall P)) (player : P)
    (item : String) :
    game.getItemCount (Run.run (play game) i cs) player item = game.getItemCount i player item +
      (cs.map (amount player item)).sum -
      ((Run.gather (play game) (turnedDown game) i cs).map (amount player item)).sum := by
  induction cs generalizing i with
  | nil => simp [Run.run, Run.gather]
  | cons c cs ih =>
    rw [Run.run, ih, Run.gather, List.map_append, List.sum_append, List.map_cons, List.sum_cons]
    cases hdone : (c.apply game i).1 with
    | true =>
      rw [h.carriedOut i c hdone, turnedDown, if_pos hdone, Option.toList_none, List.map_nil,
        List.sum_nil]
      ring
    | false =>
      rw [h.refused i c hdone, turnedDown, if_neg (by simp [hdone]), Option.toList_some,
        List.map_singleton, List.sum_singleton]
      ring

end InventoryCall

theorem InventorySystem.settles_piles {P : Type*} [DecidableEq P] (limit : ℤ) :
    (InventorySystem.piles limit : InventorySystem P (P → String → ℤ)).Settles := by
  constructor
  · rintro i (⟨player, item, count⟩ | ⟨player, item, count⟩) hdone player' item'
    · simp only [InventoryCall.play, InventoryCall.apply, InventoryCall.amount, piles] at hdone ⊢
      split_ifs at hdone ⊢ <;> simp_all [sub_eq_add_neg]
    · simp only [InventoryCall.play, InventoryCall.apply, InventoryCall.amount, piles] at hdone ⊢
      split_ifs at hdone ⊢ <;> simp_all
  · rintro i (⟨player, item, count⟩ | ⟨player, item, count⟩) hdone player' item'
    · simp only [InventoryCall.play, InventoryCall.apply, piles] at hdone ⊢
      split_ifs at hdone ⊢
      rfl
    · simp only [InventoryCall.play, InventoryCall.apply, piles] at hdone ⊢
      split_ifs at hdone ⊢
      rfl

namespace AlchemyRecipe

def uses (r : AlchemyRecipe) (item : String) : ℤ :=
  (r.ingredients.map fun e => if e.1 = item then e.2 else 0).sum

def yields (r : AlchemyRecipe) (item : String) : ℤ := (if r.item = some item then 1 else 0) - r.uses item

theorem yields_spirit {r : AlchemyRecipe} (hr : r ∈ allRecipes) (ids : List String) :
    (r.known ids).yields "dwarven_spirit" = -1 := by
  have hall : ∀ r ∈ allRecipes, r.yields "dwarven_spirit" = -1 := by decide +kernel
  exact hall r hr

theorem sum_amount_removeItem {P : Type*} [DecidableEq P] (es : List (String × ℤ)) (player p : P)
    (item : String) :
    ((es.map fun e => InventoryCall.removeItem player e.1 e.2).map (InventoryCall.amount p item)).sum =
      if player = p then -(es.map fun e => if e.1 = item then e.2 else 0).sum else 0 := by
  induction es with
  | nil => simp
  | cons e es ih =>
    rw [List.map_cons, List.map_cons, List.sum_cons, ih, List.map_cons, List.sum_cons,
      InventoryCall.amount]
    by_cases hp : player = p
    · by_cases he : e.1 = item
      · simp only [hp, he, and_self, if_true]
        ring
      · simp [hp, he]
    · simp [hp]

theorem sum_amount_calls {P : Type*} [DecidableEq P] (r : AlchemyRecipe) (player p : P) (item : String) :
    ((r.calls player).map (InventoryCall.amount p item)).sum =
      if player = p then r.yields item else 0 := by
  rw [calls, List.map_append, List.sum_append, sum_amount_removeItem, yields, uses]
  cases r.item with
  | none =>
    by_cases hp : player = p <;> simp [hp]
  | some made =>
    by_cases hp : player = p
    · by_cases hm : made = item
      · simp [hp, hm, InventoryCall.amount]
        ring
      · simp [hp, hm, InventoryCall.amount]
    · simp [hp, InventoryCall.amount]

end AlchemyRecipe

namespace AlchemySystem
variable {P I : Type*} [DecidableEq P]

def given (player : P) (item : String) : Op P → Option ℤ
  | .addItem player' item' count => if player' = player ∧ item' = item then some count else none
  | _ => none

def gains (p : P) (item : String) (cs : List (P × AlchemyRecipe)) : ℤ :=
  ((cs.filter fun c => c.1 = p).map fun c => c.2.yields item).sum

theorem gains_append (p : P) (item : String) (cs cs' : List (P × AlchemyRecipe)) :
    gains p item (cs ++ cs') = gains p item cs + gains p item cs' := by
  rw [gains, List.filter_append, List.map_append, List.sum_append]
  rfl

theorem sum_amount_requests (game : InventorySystem P I) (s : AlchemySystem I) (op : Op P) (p : P)
    (item : String) :
    ((requests game s op).map (InventoryCall.amount p item)).sum =
      (given p item op).toList.sum + gains p item (crafted game s op).toList := by
  have hcrafted (c : Option (P × AlchemyRecipe)) :
      ((c.toList.flatMap fun c => c.2.calls c.1).map (InventoryCall.amount p item)).sum =
        gains p item c.toList := by
    cases c with
    | none => rfl
    | some c =>
      rw [Option.toList_some, List.flatMap_singleton, sum_amount_calls, gains]
      by_cases hp : c.1 = p <;> simp [hp]
  cases op with
  | addItem player item' count =>
    have hnone : crafted game s (.addItem player item' count) = none := rfl
    rw [requests, given, hnone]
    by_cases hsame : player = p ∧ item' = item <;> simp [hsame, gains, InventoryCall.amount]
  | initializeSystem => exact (hcrafted _).trans (zero_add _).symm
  | craftItem player recipeId => exact (hcrafted _).trans (zero_add _).symm
  | learnRecipe recipeId => exact (hcrafted _).trans (zero_add _).symm
  | reduceToxicity amount => exact (hcrafted _).trans (zero_add _).symm

theorem sum_amount_collect (game : InventorySystem P I) (s : AlchemySystem I) (ops : List (Op P)) (p : P)
    (item : String) :
    ((Run.collect (step game) (requests game) s ops).map (InventoryCall.amount p item)).sum =
      (ops.filterMap (given p item)).sum + gains p item (Run.gather (step game) (crafted game) s ops) := by
  induction ops generalizing s with
  | nil => rfl
  | cons op ops ih =>
    rw [Run.collect, List.map_append, List.sum_append, sum_amount_requests, ih, filterMap_cons_toList,
      List.sum_append, Run.gather, gains_append]
    ring

section Runs
variable (game : InventorySystem P I) (inventory : I) (ops : List (Op P))

/-- The system after a run from its start, before it is initialized. -/
def after : AlchemySystem I := Run.run (step game) { inventory := inventory } ops

def crafts : List (P × AlchemyRecipe) := Run.gather (step game) (crafted game) { inventory := inventory } ops

def asked : List (InventoryCall P) := Run.collect (step game) (requests game) { inventory := inventory } ops

def missed (p : P) (item : String) : ℤ :=
  ((Run.gather (InventoryCall.play game) (InventoryCall.turnedDown game) inventory
    (asked game inventory ops)).map (InventoryCall.amount p item)).sum

omit [DecidableEq P] in
/-- After every run a craft succeeds exactly if its recipe was learned once the system was initialized, the
game has an inventory in which the player has all that it takes, and it brings the toxicity of all to
no more than a hundred. -/
theorem craftItem_run (player : P) (recipeId : String) :
    ((after game inventory ops).craftItem game player recipeId).1 = true ↔
      [.initializeSystem, .learnRecipe recipeId].Sublist ops ∧ game.isDefined = true ∧
        ∃ r ∈ allRecipes, r.id = recipeId ∧
          (∀ e ∈ r.ingredients, e.2 ≤ game.getItemCount (after game inventory ops).inventory player e.1) ∧
          (after game inventory ops).playerToxicity + r.toxicity ≤ 100 := by
  have hstart : Untaught ({ inventory := inventory } : AlchemySystem I) := ⟨rfl, rfl⟩
  rw [craftItem_iff, ← mem_taught]
  have hrun : (Untaught (after game inventory ops) ∧ taught ops = []) ∨
      Taught (taught ops) (after game inventory ops) := hstart.run ops
  obtain ⟨huntaught, htaught⟩ | htaught := hrun
  · rw [htaught]
    refine iff_of_false ?_ fun h => List.not_mem_nil h.1
    rintro ⟨r, hfound, -⟩
    rw [huntaught.getRecipe] at hfound
    cases hfound
  · exact htaught.allowed_iff recipeId

theorem gains_spirit (p : P) :
    gains p "dwarven_spirit" (crafts game inventory ops) =
      -(((crafts game inventory ops).filter fun c => c.1 = p).length : ℤ) := by
  have hone : ∀ c ∈ (crafts game inventory ops).filter fun c => c.1 = p,
      c.2.yields "dwarven_spirit" = -1 := by
    intro c hc
    obtain ⟨r, hr, ids, hsame⟩ :=
      crafts_of_table (.inl ⟨rfl, rfl⟩) ops c (List.mem_of_mem_filter hc)
    rw [hsame, yields_spirit hr]
  rw [gains, List.map_congr_left hone]
  simp

/-- Over every run the inventory is what the calls made of it that the gifts and the crafts ask for, in their
order. What a player has of an item is what there was, what the game gave, and what the crafts make and
take of it, but for what was turned down; and each craft asks for a spirit. -/
theorem crafts_run {game : InventorySystem P I} (h : game.Settles) (p : P) (item : String) :
    (after game inventory ops).inventory =
        Run.run (InventoryCall.play game) inventory (asked game inventory ops) ∧
      game.getItemCount (after game inventory ops).inventory p item =
        game.getItemCount inventory p item + (ops.filterMap (given p item)).sum +
          gains p item (crafts game inventory ops) - missed game inventory ops p item ∧
      (((crafts game inventory ops).filter fun c => c.1 = p).length : ℤ) =
        game.getItemCount inventory p "dwarven_spirit" +
          (ops.filterMap (given p "dwarven_spirit")).sum -
          game.getItemCount (after game inventory ops).inventory p "dwarven_spirit" -
          missed game inventory ops p "dwarven_spirit" := by
  have hplayed : (after game inventory ops).inventory =
      Run.run (InventoryCall.play game) inventory (asked game inventory ops) :=
    inventory_run { inventory := inventory } ops
  have hall (item : String) : game.getItemCount (after game inventory ops).inventory p item =
      game.getItemCount inventory p item + (ops.filterMap (given p item)).sum +
        gains p item (crafts game inventory ops) - missed game inventory ops p item := by
    have hsum : ((asked game inventory ops).map (InventoryCall.amount p item)).sum =
        (ops.filterMap (given p item)).sum + gains p item (crafts game inventory ops) :=
      sum_amount_collect game { inventory := inventory } ops p item
    rw [hplayed, InventoryCall.getItemCount_run h, hsum, missed]
    ring
  refine ⟨hplayed, hall item, ?_⟩
  have hspirit := hall "dwarven_spirit"
  have hgains := gains_spirit game inventory ops p
  linarith

theorem crafts_run_full :
    let game : InventorySystem ℕ (ℕ → String → ℤ) := .piles 2
    let ops : List (Op ℕ) := [.initializeSystem, .learnRecipe "swallow_recipe",
      .addItem 7 "potion_swallow" 2, .addItem 7 "dwarven_spirit" 2, .addItem 7 "arnica" 1,
      .addItem 7 "drowner_brain" 1, .craftItem 7 "swallow_recipe"]
    let i := (after game (fun _ _ => 0) ops).inventory
    game.getItemCount i 7 "potion_swallow" = 0 + 2 + 1 - 1 ∧
      1 = 0 + 2 - game.getItemCount i 7 "dwarven_spirit" - 0 := by
  intro game ops i
  obtain ⟨-, hpotions, hspirits⟩ :=
    crafts_run (fun _ _ => 0) ops (InventorySystem.settles_piles 2) 7 "potion_swallow"
  have hgiven : (ops.filterMap (given 7 "potion_swallow")).sum = 2 := by decide +kernel
  have hgains : gains 7 "potion_swallow" (crafts game (fun _ _ => 0) ops) = 1 := by decide +kernel
  have hmissed : missed game (fun _ _ => 0) ops 7 "potion_swallow" = 1 := by decide +kernel
  have hspirit : (ops.filterMap (given 7 "dwarven_spirit")).sum = 2 := by decide +kernel
  have hcrafts : ((crafts game (fun _ _ => 0) ops).filter fun c => c.1 = 7).length = 1 := by
    decide +kernel
  have hnone : missed game (fun _ _ => 0) ops 7 "dwarven_spirit" = 0 := by decide +kernel
  rw [hgiven, hgains, hmissed] at hpotions
  rw [hspirit, hcrafts, hnone] at hspirits
  exact ⟨hpotions, hspirits⟩

end Runs
end AlchemySystem
end WitcherMP.Alchemy
