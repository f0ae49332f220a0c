import WitcherMP.Config.RoundTrip
import WitcherMP.Core.Defs
import WitcherMP.Lib.Registries
import WitcherMP.Lib.Run
import WitcherMP.Lib.Word32

/-! The database of resources: numbers under names and names under numbers. Its defaults are put in
when something is looked up for the first time, over everything that has been loaded by then.
`unsigned long` has `w` bits; log lines are left out. -/

namespace WitcherMP.Core
open Config Config.ConfigManager Latest Scans

/-- A negative number comes out modulo the width of the type; `none` stands for an exception. -/
def stoul (w : ℕ) (s : Text) : Option ℕ :=
  let signed := sign (s.dropWhile isspace)
  let digits := signed.2.takeWhile Char.isDigit
  if digits = [] then none else
  let n := Nat.ofDigitChars 10 digits 0
  if 2 ^ w ≤ n then none else some (if signed.1 then (2 ^ w - n) % 2 ^ w else n)

structure ResourceNames extends Registry UInt32 Text where
  initialized : Bool := false
deriving DecidableEq

namespace ResourceNames

def addResource (r : ResourceNames) (id : UInt32) (name : Text) : ResourceNames :=
  { r with toRegistry := r.add id name }

def defaults : List (Text × UInt32) := Witcher3MPServer.resources.map fun d => (d.1.toList, d.2)

def initializeDefaultResources (r : ResourceNames) : ResourceNames :=
  if r.initialized then r
  else { defaults.foldl (fun r d => r.addResource d.2 d.1) r with initialized := true }

def getResourceName (r : ResourceNames) (id : UInt32) : Text × ResourceNames :=
  let r := if r.initialized then r else r.initializeDefaultResources
  ((r.idToName.find? id).getD "Unknown".toList, r)

def getResourceId (r : ResourceNames) (name : Text) : UInt32 × ResourceNames :=
  let r := if r.initialized then r else r.initializeDefaultResources
  ((r.nameToId.find? name).getD 0, r)

def findResID (r : ResourceNames) (name : Text) : UInt32 × ResourceNames := r.getResourceId name

def isValidId (r : ResourceNames) (id : UInt32) : Bool × ResourceNames :=
  let r := if r.initialized then r else r.initializeDefaultResources
  ((r.idToName.find? id).isSome, r)

def isValidName (r : ResourceNames) (name : Text) : Bool × ResourceNames :=
  let r := if r.initialized then r else r.initializeDefaultResources
  ((r.nameToId.find? name).isSome, r)

def getResourceCount (r : ResourceNames) : ℕ × ResourceNames :=
  let r := if r.initialized then r else r.initializeDefaultResources
  (r.idToName.size, r)

/-- With what is printed, whose order the map leaves open. -/
def printAllResources (r : ResourceNames) : List (UInt32 × Text) × ResourceNames :=
  let r := if r.initialized then r else r.initializeDefaultResources
  (r.idToName.entries, r)

def loadLine (w : ℕ) (r : ResourceNames) (line : Text) : ResourceNames :=
  match setting line with
  | none => r
  | some (name, idStr) =>
    match stoul w idStr with
    | none => r
    | some id => r.addResource (.ofNat id) name

def loadResourceDatabase (w : ℕ) (r : ResourceNames) (file : Option Text) : Bool × ResourceNames :=
  match file with
  | some content => (true, (getlines '\n' content).foldl (loadLine w) r)
  | none => (false, r.initializeDefaultResources)

inductive Op
  | addResource (id : UInt32) (name : Text)
  | loadResourceDatabase (file : Option Text)
  | getResourceName (id : UInt32)
  | getResourceId (name : Text)
  | findResID (name : Text)
  | isValidId (id : UInt32)
  | isValidName (name : Text)
  | getResourceCount
  | printAllResources
deriving DecidableEq

variable (w : ℕ)

def step (r : ResourceNames) : Op → ResourceNames
  | .addResource id name => r.addResource id name
  | .loadResourceDatabase file => (r.loadResourceDatabase w file).2
  | .getResourceName id => (r.getResourceName id).2
  | .getResourceId name => (r.getResourceId name).2
  | .findResID name => (r.findResID name).2
  | .isValidId id => (r.isValidId id).2
  | .isValidName name => (r.isValidName name).2
  | .getResourceCount => r.getResourceCount.2
  | .printAllResources => r.printAllResources.2

def run (ops : List Op) : ResourceNames := Run.run (step w) {} ops

def Op.initializes : Op → Bool
  | .addResource .. | .loadResourceDatabase (some _) => false
  | _ => true

def entry (line : Text) : Option (Text × UInt32) :=
  (setting line).bind fun pair => (stoul w pair.2).map fun id => (pair.1, .ofNat id)

def entered : Op → List (Text × UInt32)
  | .addResource id name => [(name, id)]
  | .loadResourceDatabase (some content) => (getlines '\n' content).filterMap (entry w)
  | _ => []

def early (ops : List Op) : List (Text × UInt32) :=
  (ops.takeWhile fun op => !op.initializes).flatMap (entered w)

def late (ops : List Op) : List (Text × UInt32) :=
  (ops.dropWhile fun op => !op.initializes).flatMap (entered w)

/-- What is looked up after a run, an entry going before those that stand before it. -/
def told (ops : List Op) : List (Text × UInt32) := early w ops ++ defaults ++ late w ops

def enter (r : ResourceNames) (es : List (Text × UInt32)) : ResourceNames :=
  { r with toRegistry := r.addAll es }

def settle (r : ResourceNames) : ResourceNames := { r with initialized := true }

variable {w}

theorem enter_nil (r : ResourceNames) : r.enter [] = r := rfl

theorem enter_settle (r : ResourceNames) (es : List (Text × UInt32)) :
    r.settle.enter es = (r.enter es).settle := rfl

theorem initialized_settle (r : ResourceNames) : r.settle.initialized = true := rfl

theorem enter_append (r : ResourceNames) (es es' : List (Text × UInt32)) :
    r.enter (es ++ es') = (r.enter es).enter es' :=
  congrArg (fun registry => ({ r with toRegistry := registry } : ResourceNames))
    (r.addAll_append es es')

theorem foldl_addResource (r : ResourceNames) (es : List (Text × UInt32)) :
    es.foldl (fun r e => r.addResource e.2 e.1) r = r.enter es := by
  induction es generalizing r with
  | nil => rfl
  | cons e es ih => exact ih (r.addResource e.2 e.1)

theorem loadLine_eq (r : ResourceNames) (line : Text) :
    loadLine w r line = r.enter (entry w line).toList := by
  rw [loadLine, entry]
  cases setting line with
  | none => rfl
  | some pair =>
    obtain ⟨name, idStr⟩ := pair
    rw [Option.bind_some]
    dsimp only
    cases stoul w idStr with
    | none => rfl
    | some id => rfl

theorem foldl_loadLine (r : ResourceNames) (lines : List Text) :
    lines.foldl (loadLine w) r = r.enter (lines.filterMap (entry w)) := by
  induction lines generalizing r with
  | nil => rfl
  | cons line lines ih =>
    rw [List.foldl_cons, ih, loadLine_eq, ← enter_append]
    cases hentry : entry w line with
    | none => rw [List.filterMap_cons_none hentry, Option.toList_none, List.nil_append]
    | some e => rw [List.filterMap_cons_some hentry, Option.toList_some, List.singleton_append]

theorem initializeDefaultResources_of_fresh {r : ResourceNames} (h : r.initialized = false) :
    r.initializeDefaultResources = (r.enter defaults).settle := by
  rw [initializeDefaultResources, if_neg (by simp [h]), foldl_addResource, settle]

theorem initializeDefaultResources_of_initialized {r : ResourceNames} (h : r.initialized = true) :
    r.initializeDefaultResources = r := if_pos h

@[simp] theorem ite_initialized (r : ResourceNames) :
    (if r.initialized then r else r.initializeDefaultResources) = r.initializeDefaultResources := by
  unfold initializeDefaultResources
  split_ifs <;> rfl

theorem step_of_initializes {r : ResourceNames} {op : Op} (h : op.initializes = true) :
    step w r op = r.initializeDefaultResources := by
  rcases op with _ | (_ | _) | _ | _ | _ | _ | _ | _
  case addResource => cases h
  case loadResourceDatabase.some => cases h
  case loadResourceDatabase.none => rfl
  all_goals exact ite_initialized r

theorem step_of_not_initializes {r : ResourceNames} {op : Op} (h : op.initializes = false) :
    step w r op = r.enter (entered w op) := by
  rcases op with _ | (_ | _) | _ | _ | _ | _ | _ | _
  case addResource => rfl
  case loadResourceDatabase.some => exact foldl_loadLine r _
  all_goals cases h

theorem entered_of_initializes {op : Op} (h : op.initializes = true) : entered w op = [] := by
  rcases op with _ | (_ | _) | _ | _ | _ | _ | _ | _
  case addResource => cases h
  case loadResourceDatabase.some => cases h
  all_goals rfl

theorem step_of_initialized {r : ResourceNames} {op : Op} (h : r.initialized = true) :
    step w r op = r.enter (entered w op) := by
  cases hop : op.initializes with
  | false => exact step_of_not_initializes hop
  | true =>
    rw [step_of_initializes hop, initializeDefaultResources_of_initialized h,
      entered_of_initializes hop]
    rfl

theorem run_early {ops : List Op} (h : ∀ op ∈ ops, op.initializes = false) (r : ResourceNames) :
    Run.run (step w) r ops = r.enter (ops.flatMap (entered w)) := by
  induction ops generalizing r with
  | nil => rfl
  | cons op ops ih =>
    obtain ⟨hop, hops⟩ := List.forall_mem_cons.mp h
    rw [Run.run, ih hops, step_of_not_initializes hop, List.flatMap_cons, enter_append]

theorem run_late {r : ResourceNames} (h : r.initialized = true) (ops : List Op) :
    Run.run (step w) r ops = r.enter (ops.flatMap (entered w)) := by
  induction ops generalizing r with
  | nil => rfl
  | cons op ops ih =>
    have hnext : (r.enter (entered w op)).initialized = true := h
    rw [Run.run, step_of_initialized h, ih hnext, List.flatMap_cons, enter_append]

theorem initialized_run (ops : List Op) :
    (run w ops).initializeDefaultResources = (({} : ResourceNames).enter (told w ops)).settle := by
  generalize hr : ({} : ResourceNames) = r
  have hfresh : r.initialized = false := by rw [← hr]
  have hfirst : ∀ op ∈ ops.takeWhile (fun op => !op.initializes), op.initializes = false :=
    fun op hop => by simpa using List.mem_takeWhile_imp hop
  have hsplit : run w ops = Run.run (step w) (r.enter (early w ops))
      (ops.dropWhile fun op => !op.initializes) := by
    conv_lhs =>
      rw [run, ← List.takeWhile_append_dropWhile (p := fun op => !op.initializes) (l := ops)]
    rw [Run.run_append, run_early hfirst, hr, early]
  rw [hsplit, told, enter_append, enter_append, late]
  have hearly : (r.enter (early w ops)).initialized = false := hfresh
  cases hrest : ops.dropWhile (fun op => !op.initializes) with
  | nil =>
    rw [Run.run, initializeDefaultResources_of_fresh hearly, List.flatMap_nil, enter_nil]
  | cons op rest =>
    have hop : op.initializes = true := by
      have hhead := List.head?_dropWhile_not (fun op : Op => !op.initializes) ops
      rw [hrest] at hhead
      simpa using hhead
    rw [Run.run, step_of_initializes hop, initializeDefaultResources_of_fresh hearly,
      run_late (initialized_settle _), List.flatMap_cons, entered_of_initializes hop,
      List.nil_append, enter_settle,
      initializeDefaultResources_of_initialized (initialized_settle _)]

section Answers
variable {name : Text} {es : List (Text × UInt32)}

def stocked (es : List (Text × UInt32)) : ResourceNames := (({} : ResourceNames).enter es).settle

theorem find?_nameToId_stocked (es : List (Text × UInt32)) (name : Text) :
    (stocked es).nameToId.find? name = latest es name :=
  (Registry.find?_nameToId_addAll {} es name).trans Option.or_none

theorem find?_idToName_stocked (es : List (Text × UInt32)) (id : UInt32) :
    (stocked es).idToName.find? id = latest (es.map Prod.swap) id :=
  (Registry.find?_idToName_addAll {} es id).trans Option.or_none

theorem initializeDefaultResources_stocked (es : List (Text × UInt32)) :
    (stocked es).initializeDefaultResources = stocked es :=
  initializeDefaultResources_of_initialized (initialized_settle _)

theorem getResourceId_run (ops : List Op) (name : Text) :
    (run w ops).getResourceId name =
      ((latest (told w ops) name).getD 0, stocked (told w ops)) := by
  rw [getResourceId, ite_initialized, initialized_run, ← stocked, find?_nameToId_stocked]

theorem getResourceName_stocked (es : List (Text × UInt32)) (id : UInt32) :
    (stocked es).getResourceName id =
      ((latest (es.map Prod.swap) id).getD "Unknown".toList, stocked es) := by
  rw [getResourceName, ite_initialized, initializeDefaultResources_stocked, find?_idToName_stocked]

theorem getResourceName_run (ops : List Op) (id : UInt32) :
    (run w ops).getResourceName id =
      ((latest ((told w ops).map Prod.swap) id).getD "Unknown".toList, stocked (told w ops)) := by
  rw [getResourceName, ite_initialized, initialized_run, ← stocked, find?_idToName_stocked]

/-- After every run the last entry is found, where the defaults count as entered at the first call
that looks something up or finds no file: the file loaded before it does not replace them. -/
theorem answers_run (ops : List Op) (name : Text) (id : UInt32) :
    ((run w ops).getResourceId name).1 =
        ((latest (late w ops) name).or
          ((latest defaults name).or (latest (early w ops) name))).getD 0 ∧
      ((run w ops).getResourceName id).1 =
        ((latest ((late w ops).map Prod.swap) id).or ((latest (defaults.map Prod.swap) id).or
          (latest ((early w ops).map Prod.swap) id))).getD "Unknown".toList := by
  constructor
  · rw [getResourceId_run, told, latest_append, latest_append]
  · rw [getResourceName_run, told, List.map_append, List.map_append, latest_append, latest_append]

theorem nodup_defaults : (defaults.map Prod.fst).Nodup := by decide +kernel

theorem findResID_server (names : List Text) (name : Text) :
    ((run w (names.map Op.findResID)).findResID name).1 = Witcher3MPServer.findResID name := by
  have hnone : ∀ op ∈ names.map Op.findResID, entered w op = [] := by
    intro op hop
    obtain ⟨other, -, rfl⟩ := List.mem_map.mp hop
    rfl
  have hearly : early w (names.map Op.findResID) = [] :=
    List.flatMap_eq_nil_iff.mpr fun op hop => hnone op ((List.takeWhile_subset _) hop)
  have hlate : late w (names.map Op.findResID) = [] :=
    List.flatMap_eq_nil_iff.mpr fun op hop => hnone op ((List.dropWhile_subset _) hop)
  have hnothing : latest ([] : List (Text × UInt32)) name = none := rfl
  rw [findResID, (answers_run _ name 0).1, hearly, hlate, hnothing, Option.none_or, Option.or_none,
    latest_of_nodup nodup_defaults, defaults, Witcher3MPServer.findResID, List.find?_map,
    Option.map_map]
  rfl

/-- The way from a name to its number and back leads to the name, unless the number has been given
to another name since. -/
theorem name_of_id_run (ops : List Op) (name : Text) :
    (((run w ops).getResourceId name).2.getResourceName
        ((run w ops).getResourceId name).1).1 = name ↔
      (∃ id, latest (told w ops) name = some id ∧ ¬ Registry.Reused (told w ops) name id) ∨
        (∀ e ∈ told w ops, e.1 ≠ name ∧ e.2 ≠ 0) ∧ name = "Unknown".toList := by
  rw [getResourceId_run, getResourceName_stocked]
  dsimp only
  generalize told w ops = es
  cases hid : latest es name with
  | some id =>
    have hknown : ¬ ((∀ e ∈ es, e.1 ≠ name ∧ e.2 ≠ 0) ∧ name = "Unknown".toList) :=
      fun h => (h.1 _ (mem_of_latest hid)).1 rfl
    rw [or_iff_left hknown, Option.getD_some]
    obtain ⟨last, hlast⟩ : ∃ last, latest (es.map Prod.swap) id = some last := by
      refine Option.ne_none_iff_exists'.mp fun hnone => ?_
      exact latest_eq_none_iff.mp hnone _ (List.mem_map_of_mem (mem_of_latest hid)) rfl
    rw [hlast, Option.getD_some]
    constructor
    · rintro rfl
      exact ⟨id, rfl, (Registry.latest_swap_iff hid).mp hlast⟩
    · rintro ⟨id', hid', hreused⟩
      obtain rfl := Option.some.inj hid'
      exact Option.some.inj (hlast.symm.trans ((Registry.latest_swap_iff hid).mpr hreused))
  | none =>
    have hunknown := latest_eq_none_iff.mp hid
    rw [or_iff_right (by rintro ⟨id, hsome, -⟩; cases hsome), Option.getD_none]
    cases hzero : latest (es.map Prod.swap) 0 with
    | none =>
      have hfree : ∀ e ∈ es, e.2 ≠ 0 := fun e he =>
        latest_eq_none_iff.mp hzero e.swap (List.mem_map_of_mem he)
      rw [Option.getD_none, and_iff_right fun e he => ⟨hunknown e he, hfree e he⟩, eq_comm]
    | some last =>
      obtain ⟨e, he, heq⟩ := List.mem_map.mp (mem_of_latest hzero)
      have hlast : e.1 = last := congrArg Prod.snd heq
      rw [Option.getD_some]
      constructor
      · rintro rfl
        exact absurd hlast (hunknown e he)
      · rintro ⟨hfree, -⟩
        exact absurd (congrArg Prod.fst heq) (hfree e he).2

end Answers

section Written
variable {es : List (Text × UInt32)} {name : Text}

def written (es : List (Text × UInt32)) : Text :=
  unlines (es.map fun e => settingLine (e.1, (toString e.2.toNat).toList))

/-- A name that is read back from a line: nothing blank at an end, no separator, no comment. -/
def Writable (name : Text) : Prop := Tidy (name, []) ∧ name.head? ≠ some '#'

theorem not_isBlank_of_isDigit {c : Char} (h : c.isDigit) : isBlank c = false := by
  have hspace := (digit_cases h).1
  rw [isBlank, Bool.or_eq_false_iff]
  refine ⟨decide_eq_false ?_, decide_eq_false ?_⟩
  · rintro rfl
    exact absurd hspace (by decide)
  · rintro rfl
    exact absurd hspace (by decide)

theorem trim_of_digits {s : Text} (h : ∀ c ∈ s, c.isDigit) : trim s = s := by
  have hfront : s.dropWhile isBlank = s := by
    cases s with
    | nil => rfl
    | cons c cs =>
      refine List.dropWhile_cons_of_neg ?_
      simp [not_isBlank_of_isDigit (h c List.mem_cons_self)]
  rw [trim, hfront, List.rdropWhile_eq_self_iff]
  intro hne
  simp [not_isBlank_of_isDigit (h _ (List.getLast_mem hne))]

theorem stoul_of_digits {s : Text} (hdigits : ∀ c ∈ s, c.isDigit) (hne : s ≠ [])
    (h : Nat.ofDigitChars 10 s 0 < 2 ^ w) : stoul w s = some (Nat.ofDigitChars 10 s 0) := by
  obtain ⟨c, cs, rfl⟩ := List.exists_cons_of_ne_nil hne
  have hfirst := hdigits c List.mem_cons_self
  have hdrop : (c :: cs).dropWhile isspace = c :: cs :=
    List.dropWhile_cons_of_neg (by simp [(digit_cases hfirst).1])
  have htake : (c :: cs).takeWhile Char.isDigit = c :: cs := List.takeWhile_eq_self_iff.mpr hdigits
  rw [stoul, hdrop, sign_cons_of_isDigit hfirst]
  dsimp only
  rw [htake, if_neg hne, if_neg (not_le.mpr h), if_neg Bool.false_ne_true]

theorem stoul_toString {n : ℕ} (h : n < 2 ^ w) : stoul w (toString n).toList = some n := by
  have hne : (toString n).toList ≠ [] := by
    rw [Numerals.toList_toString]
    exact Nat.toDigits_ne_nil
  have hvalue : Nat.ofDigitChars 10 (toString n).toList 0 = n := by
    rw [Numerals.toList_toString, Nat.ofDigitChars_ten_toDigits]
  have hstoul := stoul_of_digits (w := w) (fun c => Numerals.isDigit_of_mem) hne (hvalue.symm ▸ h)
  rwa [hvalue] at hstoul

theorem Writable.tidy (h : Writable name) (n : ℕ) : Tidy (name, (toString n).toList) where
  trim_key := h.1.trim_key
  trim_value := trim_of_digits fun c => Numerals.isDigit_of_mem
  separator := h.1.separator
  line_key := h.1.line_key
  line_value hmem := absurd (Numerals.isDigit_of_mem hmem) (by decide)

theorem entered_written (hw : 32 ≤ w) (h : ∀ e ∈ es, Writable e.1) :
    entered w (.loadResourceDatabase (some (written es))) = es := by
  have hlines : ∀ line ∈ es.map (fun e => settingLine (e.1, (toString e.2.toNat).toList)),
      '\n' ∉ line := by
    intro line hline
    obtain ⟨e, he, rfl⟩ := List.mem_map.mp hline
    exact ((h e he).tidy e.2.toNat).settingLine_line
  rw [entered, written, unlines, getlines_flatMap hlines, List.filterMap_map]
  have hentry : ∀ e ∈ es, (entry w ∘ fun e => settingLine (e.1, (toString e.2.toNat).toList)) e =
      some e := by
    intro e he
    have hlt : e.2.toNat < 2 ^ w := e.2.toNat_lt.trans_le (Nat.pow_le_pow_right (by decide) hw)
    rw [Function.comp_apply, entry, ((h e he).tidy e.2.toNat).setting_settingLine,
      if_neg (h e he).2, Option.bind_some, stoul_toString hlt, Option.map_some,
      UInt32.ofNat_toNat]
  rw [List.filterMap_congr hentry, List.filterMap_some]

theorem told_append_of_initializes {ops : List Op} (h : ∃ op ∈ ops, op.initializes = true)
    (ops' : List Op) : told w (ops ++ ops') = told w ops ++ ops'.flatMap (entered w) := by
  obtain ⟨op, hop, hinit⟩ := h
  have hdrop : ops.dropWhile (fun op => !op.initializes) ≠ [] := by
    rw [ne_eq, List.dropWhile_eq_nil_iff]
    exact fun hall => by simpa [hinit] using hall op hop
  have htake : (ops ++ ops').takeWhile (fun op => !op.initializes) =
      ops.takeWhile fun op => !op.initializes := by
    rw [List.takeWhile_append, if_neg]
    intro hlength
    have hsplit := congrArg List.length
      (List.takeWhile_append_dropWhile (p := fun op : Op => !op.initializes) (l := ops))
    rw [List.length_append, hlength, Nat.add_eq_left, List.length_eq_zero_iff] at hsplit
    exact hdrop hsplit
  have hrest : (ops ++ ops').dropWhile (fun op => !op.initializes) =
      ops.dropWhile (fun op => !op.initializes) ++ ops' := by
    rw [List.dropWhile_append, if_neg (by simpa using hdrop)]
  rw [told, told, early, late, htake, hrest, List.flatMap_append, ← early, ← late,
    List.append_assoc]
  simp only [List.append_assoc]

theorem told_of_not_initializes {ops : List Op} (h : ∀ op ∈ ops, op.initializes = false) :
    told w ops = ops.flatMap (entered w) ++ defaults := by
  have hall : ∀ op ∈ ops, (!op.initializes) = true := fun op hop => by simp [h op hop]
  rw [told, early, late, List.takeWhile_eq_self_iff.mpr hall, List.dropWhile_eq_nil_iff.mpr hall,
    List.flatMap_nil, List.append_nil]

/-- A file that is written entry by entry and then loaded has its last word on every name, but on
those of the defaults only once something has been looked up. -/
theorem load_written (hw : 32 ≤ w) (h : ∀ e ∈ es, Writable e.1) (ops : List Op) (name : Text) :
    ((run w (ops ++ [.loadResourceDatabase (some (written es))])).getResourceId name).1 =
      if (∃ op ∈ ops, op.initializes = true) ∨ ∀ d ∈ defaults, d.1 ≠ name then
        (latest es name).getD ((run w ops).getResourceId name).1
      else ((run w ops).getResourceId name).1 := by
  have hfile : [Op.loadResourceDatabase (some (written es))].flatMap (entered w) = es := by
    rw [List.flatMap_singleton, entered_written hw h]
  rw [getResourceId_run, getResourceId_run]
  dsimp only
  by_cases hinit : ∃ op ∈ ops, op.initializes = true
  · rw [if_pos (Or.inl hinit), told_append_of_initializes hinit, hfile, latest_append]
    cases latest es name <;> rfl
  · have hfresh : ∀ op ∈ ops, op.initializes = false := fun op hop =>
      Bool.eq_false_iff.mpr fun hop' => hinit ⟨op, hop, hop'⟩
    have hfresh' : ∀ op ∈ ops ++ [.loadResourceDatabase (some (written es))],
        op.initializes = false :=
      List.forall_mem_append.mpr ⟨hfresh, List.forall_mem_singleton.mpr rfl⟩
    rw [told_of_not_initializes hfresh, told_of_not_initializes hfresh', List.flatMap_append, hfile,
      latest_append, latest_append, latest_append]
    by_cases hdefault : ∀ d ∈ defaults, d.1 ≠ name
    · rw [if_pos (Or.inr hdefault), latest_eq_none_iff.mpr hdefault, Option.none_or, Option.none_or]
      cases latest es name <;> rfl
    · rw [if_neg (not_or.mpr ⟨hinit, hdefault⟩)]
      obtain ⟨id, hid⟩ : ∃ id, latest defaults name = some id :=
        Option.ne_none_iff_exists'.mp fun hnone => hdefault (latest_eq_none_iff.mp hnone)
      rw [hid, Option.some_or, Option.some_or]

theorem load_written_regis :
    let file := written [("Regis".toList, 11), ("Ciri".toList, 40)]
    ((run 32 [.loadResourceDatabase (some file)]).getResourceId "Regis".toList).1 = 11 ∧
      ((run 32 [.loadResourceDatabase (some file)]).getResourceId "Ciri".toList).1 = 4 := by
  have hnames : ∀ e ∈ [("Regis".toList, (11 : UInt32)), ("Ciri".toList, 40)], Writable e.1 := by
    have hall : ∀ e ∈ [("Regis".toList, (11 : UInt32)), ("Ciri".toList, 40)],
        trim e.1 = e.1 ∧ '=' ∉ e.1 ∧ '\n' ∉ e.1 ∧ e.1.head? ≠ some '#' := by decide +kernel
    intro e he
    obtain ⟨htrim, hsep, hline, hmark⟩ := hall e he
    exact ⟨⟨htrim, rfl, hsep, hline, List.not_mem_nil⟩, hmark⟩
  constructor
  · refine (load_written (le_refl 32) hnames [] _).trans ?_
    decide +kernel
  · refine (load_written (le_refl 32) hnames [] _).trans ?_
    decide +kernel

end Written

end ResourceNames
end WitcherMP.Core
