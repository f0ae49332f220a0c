import WitcherMP.Combat.Defs
import WitcherMP.Lib.JsonStrings

/-! The parameters the bridges to the game hand over as JSON. Names and values get quotes around
them and are otherwise written as they are, a position as the JSON of its four floats. What a
stream writes of a float is an argument; texts are Unicode, and bytes that are no UTF-8 are left out. -/

namespace WitcherMP.Bridges
open Combat (Vector4F)

def vector4FToREDkit (format : UInt32 → String) (v : Vector4F) : String :=
  "\x7b\"x\":" ++ format v.x ++ ",\"y\":" ++ format v.y ++ ",\"z\":" ++ format v.z ++
    ",\"w\":" ++ format v.w ++ "\x7d"

def addParameter (text : String) (param : (String × String) × ℕ) : String :=
  (if 0 < param.2 then text ++ "," else text) ++
    "\"" ++ param.1.1 ++ "\":\"" ++ param.1.2 ++ "\""

def createParameters (params : List (String × String)) : String :=
  params.zipIdx.foldl addParameter "\x7b" ++ "\x7d"

def createREDkitParameters (params : List (String × String)) : String := createParameters params

def createWitcherScriptParameters (params : List (String × String)) : String :=
  createParameters params

inductive Parameter
  | text (s : String)
  | position (v : Vector4F)

def Parameter.value (format : UInt32 → String) : Parameter → String
  | .text s => s
  | .position v => vector4FToREDkit format v

def pushed (format : UInt32 → String) (params : List (String × Parameter)) :
    List (String × String) :=
  params.map fun p => (p.1, p.2.value format)

def createMultiplayerNPC (npcType : String) (position : Vector4F) : List (String × Parameter) :=
  [("npcType", .text npcType), ("position", .position position)]

def createMultiplayerItem (itemType : String) (position : Vector4F) : List (String × Parameter) :=
  [("itemType", .text itemType), ("position", .position position)]

def chars (p : String × String) : List Char × List Char := (p.1.toList, p.2.toList)

theorem chars_injective : Function.Injective chars := by
  intro p q h
  obtain ⟨hname, hvalue⟩ := Prod.mk.inj h
  exact Prod.ext (String.toList_inj.mp hname) (String.toList_inj.mp hvalue)

theorem toList_addParameter (text : String) (p : String × String) (n : ℕ) :
    (addParameter text (p, n)).toList
      = text.toList ++ (if 0 < n then [','] else []) ++ Json.writeMember (chars p) := by
  rw [addParameter]
  split_ifs <;> simp [Json.writeMember, Json.writeString, Json.writeChars, chars]

theorem toList_foldl_addParameter (p : String × String) (params : List (String × String))
    (text : String) (n : ℕ) :
    (((p :: params).zipIdx n).foldl addParameter text ++ "\x7d").toList
      = text.toList ++ (if 0 < n then [','] else []) ++
        Json.writeSeq Json.writeMember '\x7d' (chars p) (params.map chars) := by
  induction params generalizing p text n with
  | nil =>
    rw [List.zipIdx_singleton, List.foldl_cons, List.foldl_nil, String.toList_append]
    rw [toList_addParameter, List.append_assoc]
    rfl
  | cons q params ih =>
    rw [List.zipIdx_cons, List.foldl_cons, ih, toList_addParameter, if_pos (Nat.succ_pos n)]
    rw [List.map_cons, Json.writeSeq]
    simp only [List.append_assoc, List.singleton_append]

theorem toList_createParameters (params : List (String × String)) :
    (createParameters params).toList = Json.writeObject (params.map chars) := by
  cases params with
  | nil => rfl
  | cons p params =>
    rw [createParameters, toList_foldl_addParameter]
    rfl

/-- The text is JSON, and reads back as exactly these names and values. -/
def ReadsBack (text : String) (params : List (String × String)) : Prop :=
  Json.parse text.toList = some (Json.ofStrings (params.map chars))

/-- No position among the parameters, and no name or text that JSON would have to escape. -/
def Plain (params : List (String × Parameter)) : Prop :=
  ∀ p ∈ params, Json.Plain p.1.toList ∧ ∃ s, p.2 = .text s ∧ Json.Plain s.toList

theorem readsBack_createParameters_iff (params : List (String × String)) :
    ReadsBack (createParameters params) params ↔
      ∀ p ∈ params, Json.Plain p.1.toList ∧ Json.Plain p.2.toList := by
  rw [ReadsBack, toList_createParameters, Json.parse_writeObject_iff]
  exact List.forall_mem_map

theorem toList_vector4FToREDkit (format : UInt32 → String) (v : Vector4F) :
    ∃ text, (vector4FToREDkit format v).toList = '{' :: '"' :: 'x' :: text := by
  refine ⟨'"' :: ':' :: (format v.x ++ ",\"y\":" ++ format v.y ++ ",\"z\":" ++ format v.z ++
    ",\"w\":" ++ format v.w ++ "\x7d").toList, ?_⟩
  unfold vector4FToREDkit
  simp only [String.toList_append]
  rfl

theorem not_plain_vector4FToREDkit (format : UInt32 → String) (v : Vector4F) :
    ¬ Json.Plain (vector4FToREDkit format v).toList := by
  intro h
  obtain ⟨text, htext⟩ := toList_vector4FToREDkit format v
  rw [htext] at h
  exact (h '"' (List.mem_cons_of_mem _ List.mem_cons_self)).1 rfl

theorem plain_iff (format : UInt32 → String) (params : List (String × Parameter)) :
    Plain params ↔
      ∀ p ∈ pushed format params, Json.Plain p.1.toList ∧ Json.Plain p.2.toList := by
  rw [pushed, List.forall_mem_map]
  refine forall₂_congr fun p _ => and_congr_right fun _ => ?_
  cases p.2 with
  | text s => exact ⟨fun ⟨_, heq, hs⟩ => Parameter.text.inj heq ▸ hs, fun hs => ⟨s, rfl, hs⟩⟩
  | position v =>
    refine iff_of_false (fun ⟨_, heq, _⟩ => ?_) (not_plain_vector4FToREDkit format v)
    cases heq

theorem Plain.pushed_inj {format : UInt32 → String} {params params' : List (String × Parameter)}
    (h : Plain params) (h' : Plain params') (heq : pushed format params = pushed format params') :
    params = params' := by
  have hread {ps : List (String × Parameter)} (hs : Plain ps) :
      (pushed format ps).map (fun p => (p.1, Parameter.text p.2)) = ps := by
    rw [pushed, List.map_map]
    refine (List.map_congr_left fun p hp => ?_).trans (List.map_id ps)
    obtain ⟨-, s, htext, -⟩ := hs p hp
    rw [Function.comp_apply, htext, Parameter.value, ← htext, id]
  rw [← hread h, heq, hread h']

theorem parse_position_eq_none (format : UInt32 → String) {params : List (String × Parameter)}
    (hparams : Plain params) {name : String} (hname : Json.Plain name.toList) (v : Vector4F)
    (rest : List (String × Parameter)) :
    Json.parse (createParameters (pushed format (params ++ (name, .position v) :: rest))).toList
      = none := by
  have hbrace : Json.Plain ['{'] := by decide
  have hmembers : ∀ p ∈ (pushed format params).map chars, Json.Plain p.1 ∧ Json.Plain p.2 :=
    List.forall_mem_map.mpr ((plain_iff format params).mp hparams)
  obtain ⟨coordinates, hposition⟩ := toList_vector4FToREDkit format v
  obtain ⟨text, htext⟩ := Json.writeSeq_eq_append Json.writeMember '}'
    (name.toList, '{' :: '"' :: 'x' :: coordinates) ((pushed format rest).map chars)
  have hnone := Json.parse_members_eq_none hmembers (p := (name.toList, ['{'])) ⟨hname, hbrace⟩
    (c := 'x') (by decide) (by decide) (by decide) (coordinates ++ '"' :: text)
  rw [toList_createParameters, pushed, List.map_append, List.map_append, List.map_cons, List.map_cons]
  rw [Json.writeObject, Json.writeItems_append, ← pushed, ← pushed, chars, Parameter.value, hposition]
  rw [htext]
  refine Eq.trans ?_ hnone
  simp [Json.writeMember, Json.writeString, Json.writeChars]

theorem parse_placed_eq_none (format : UInt32 → String) {name value : String}
    (hname : Json.Plain name.toList) (hvalue : Json.Plain value.toList) (position : Vector4F) :
    Json.parse (createParameters
      (pushed format [(name, .text value), ("position", .position position)])).toList = none := by
  have hplain : Plain [(name, .text value)] :=
    List.forall_mem_singleton.mpr ⟨hname, value, rfl, hvalue⟩
  exact parse_position_eq_none format hplain (by decide) position []

theorem parse_createMultiplayerNPC_eq_none (format : UInt32 → String) {npcType : String}
    (h : Json.Plain npcType.toList) (position : Vector4F) :
    Json.parse (createREDkitParameters
      (pushed format (createMultiplayerNPC npcType position))).toList = none :=
  parse_placed_eq_none format (by decide) h position

theorem parse_createMultiplayerItem_eq_none (format : UInt32 → String) {itemType : String}
    (h : Json.Plain itemType.toList) (position : Vector4F) :
    Json.parse (createREDkitParameters
      (pushed format (createMultiplayerItem itemType position))).toList = none :=
  parse_placed_eq_none format (by decide) h position

/-- Of texts and positions, the parameters are read back from the request exactly if they are
plain, and plain parameters that differ never make the same request. -/
theorem parameters_read_back_iff (format : UInt32 → String) (params : List (String × Parameter)) :
    (ReadsBack (createREDkitParameters (pushed format params)) (pushed format params) ↔
        Plain params) ∧
      (ReadsBack (createWitcherScriptParameters (pushed format params)) (pushed format params) ↔
        Plain params) ∧
      ∀ params', Plain params → Plain params' →
        createREDkitParameters (pushed format params)
            = createREDkitParameters (pushed format params') ∨
          createWitcherScriptParameters (pushed format params)
            = createWitcherScriptParameters (pushed format params') →
        params = params' := by
  have hread (ps : List (String × Parameter)) :
      ReadsBack (createParameters (pushed format ps)) (pushed format ps) ↔ Plain ps :=
    (readsBack_createParameters_iff _).trans (plain_iff format ps).symm
  refine ⟨hread params, hread params, fun params' hplain hplain' hsame => ?_⟩
  have htext : createParameters (pushed format params) = createParameters (pushed format params') :=
    hsame.elim id id
  have hparse := (hread params).mpr hplain
  rw [ReadsBack, htext, (hread params').mpr hplain'] at hparse
  have hpushed := Json.ofStrings_injective (Option.some.inj hparse)
  exact hplain.pushed_inj hplain' (List.map_injective_iff.mpr chars_injective hpushed).symm

theorem not_parameters_read_back :
    ¬ ReadsBack (createREDkitParameters (pushed (fun _ => "0") (createMultiplayerNPC "human" {})))
        (pushed (fun _ => "0") (createMultiplayerNPC "human" {})) ∧
      createREDkitParameters [("npcType", "human\",\"level\":\"9")]
        = createREDkitParameters [("npcType", "human"), ("level", "9")] ∧
      createWitcherScriptParameters [("npcType", "human\",\"level\":\"9")]
        = createWitcherScriptParameters [("npcType", "human"), ("level", "9")] := by
  refine ⟨fun h => ?_, by decide, by decide⟩
  have hhuman : Json.Plain "human".toList := by decide
  have hnone := parse_createMultiplayerNPC_eq_none (fun _ => "0") hhuman {}
  exact absurd (hnone.symm.trans h) (Option.some_ne_none _).symm

end WitcherMP.Bridges
