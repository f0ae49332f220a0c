import WitcherMP.Lib.Latest
import WitcherMP.Lib.OrdMap

/-! Names and ids in two maps that are written together. A name or an id that is entered again has
its new partner only, while the old partner still points to it. -/

namespace WitcherMP
open Latest

structure Registry (ι ν : Type*) [LinearOrder ι] [LinearOrder ν] where
  idToName : OrdMap ι ν := .empty
  nameToId : OrdMap ν ι := .empty
deriving DecidableEq

namespace Registry
variable {ι ν : Type*}

section Entries
variable [DecidableEq ι] [DecidableEq ν] {es : List (ν × ι)} {name : ν} {id : ι}

def Reused (es : List (ν × ι)) (name : ν) (id : ι) : Prop :=
  ∃ before after, es = before ++ (name, id) :: after ∧ (∀ e ∈ after, e.1 ≠ name) ∧
    ∃ e ∈ after, e.2 = id

theorem latest_swap_iff (h : latest es name = some id) :
    latest (es.map Prod.swap) id = some name ↔ ¬ Reused es name id := by
  constructor
  · rintro hback ⟨before, after, rfl, hname, e, he, hid⟩
    rw [List.map_append, latest_append, List.map_cons, ← List.singleton_append,
      latest_append] at hback
    cases hlate : latest (after.map Prod.swap) id with
    | none => exact latest_eq_none_iff.mp hlate e.swap (List.mem_map_of_mem he) hid
    | some last =>
      rw [hlate] at hback
      obtain rfl := Option.some.inj hback
      obtain ⟨e, hmem, heq⟩ := List.mem_map.mp (mem_of_latest hlate)
      exact hname e hmem (congrArg Prod.snd heq)
  · intro hreused
    obtain ⟨before, after, rfl, hname⟩ := latest_eq_some_iff.mp h
    rw [latest_eq_some_iff]
    refine ⟨before.map Prod.swap, after.map Prod.swap, List.map_append, fun b hb hid => ?_⟩
    obtain ⟨e, he, rfl⟩ := List.mem_map.mp hb
    exact hreused ⟨before, after, rfl, hname, e, he, hid⟩

end Entries

section Maps
variable [LinearOrder ι] [LinearOrder ν]

def add (r : Registry ι ν) (id : ι) (name : ν) : Registry ι ν where
  idToName := r.idToName.insert id name
  nameToId := r.nameToId.insert name id

def addAll (r : Registry ι ν) (es : List (ν × ι)) : Registry ι ν :=
  es.foldl (fun r e => r.add e.2 e.1) r

theorem addAll_append (r : Registry ι ν) (es es' : List (ν × ι)) :
    r.addAll (es ++ es') = (r.addAll es).addAll es' := List.foldl_append

theorem find?_nameToId_addAll [DecidableEq ν] (r : Registry ι ν) (es : List (ν × ι)) (name : ν) :
    (r.addAll es).nameToId.find? name = (latest es name).or (r.nameToId.find? name) := by
  induction es generalizing r with
  | nil => rfl
  | cons e es ih =>
    have hlatest := latest_append [e] es name
    rw [List.singleton_append] at hlatest
    have hone : latest [e] name = if e.1 = name then some e.2 else none := by
      simp only [latest, List.reverse_singleton, List.find?_singleton, decide_eq_true_eq]
      split_ifs <;> rfl
    rw [addAll, List.foldl_cons, ← addAll, ih, hlatest, Option.or_assoc, add, OrdMap.find?_insert,
      hone]
    split_ifs <;> rfl

theorem find?_idToName_addAll [DecidableEq ι] (r : Registry ι ν) (es : List (ν × ι)) (id : ι) :
    (r.addAll es).idToName.find? id = (latest (es.map Prod.swap) id).or (r.idToName.find? id) := by
  have hswap : ∀ r : Registry ι ν, (r.addAll es).idToName.find? id =
      (addAll ⟨r.nameToId, r.idToName⟩ (es.map Prod.swap)).nameToId.find? id := by
    induction es with
    | nil => exact fun r => rfl
    | cons e es ih => exact fun r => ih (r.add e.2 e.1)
  rw [hswap, find?_nameToId_addAll]

end Maps

end Registry
end WitcherMP
