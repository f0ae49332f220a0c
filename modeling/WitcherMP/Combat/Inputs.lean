import WitcherMP.Combat.Ledger
import WitcherMP.Lib.Traced
import WitcherMP.Lib.Word32

/-! What players send, byte by byte: the fields of an input are read, written into the data of an
action, and read again when the action is processed, each time at other offsets. -/

namespace WitcherMP.Combat
open Bytes

structure CombatSystemIntegration where
  combatOptimizer : CombatOptimizer := {}
  initialized : Bool := false
  droppedActions : UInt64 := 0
deriving DecidableEq

def readU32 (inputData : List UInt8) (offset : ℕ) : Traced UInt32 := do
  let bytes ← Traced.getRange inputData offset 4
  return u32At bytes 0

def readVector (inputData : List UInt8) (offset : ℕ) : Traced Vector4F := do
  let bytes ← Traced.getRange inputData offset 16
  return vectorAt bytes 0

namespace CombatSystemIntegration

def added (s : CombatSystemIntegration) (r : CombatOptimizer × Option Bool) :
    CombatSystemIntegration × Option Bool :=
  ({ s with
      combatOptimizer := r.1
      droppedActions := if r.2 = some false then s.droppedActions + 1 else s.droppedActions }, r.2)

def executeAttack (s : CombatSystemIntegration) (playerId attackType weaponType : UInt32)
    (targetPosition : Vector4F) (now : ℤ) : CombatSystemIntegration × Option Bool :=
  if ¬ s.initialized then (s, some false)
  else s.added (s.combatOptimizer.addAttackAction playerId attackType weaponType targetPosition now)

def executeDefense (s : CombatSystemIntegration) (playerId defenseType incomingAttackId : UInt32)
    (now : ℤ) : CombatSystemIntegration × Option Bool :=
  if ¬ s.initialized then (s, some false)
  else s.added (s.combatOptimizer.addDefenseAction playerId defenseType incomingAttackId now)

def castSign (s : CombatSystemIntegration) (playerId signType : UInt32) (targetPosition : Vector4F)
    (now : ℤ) : CombatSystemIntegration × Option Bool :=
  if ¬ s.initialized then (s, some false)
  else s.added (s.combatOptimizer.addSignAction playerId signType targetPosition now)

def processPlayerInput (s : CombatSystemIntegration) (playerId : UInt32) (inputData : List UInt8)
    (now : ℤ) : Traced (CombatSystemIntegration × Option Bool) :=
  if ¬ s.initialized then pure (s, some false)
  else if inputData.length < 4 then pure (s, some false)
  else do
    let actionType ← readU32 inputData 0
    if actionType = 0 then
      if inputData.length ≥ 28 then
        let attackType ← readU32 inputData 4
        let weaponType ← readU32 inputData 8
        let targetPosition ← readVector inputData 12
        return s.executeAttack playerId attackType weaponType targetPosition now
      else return (s, some false)
    else if actionType = 1 then
      if inputData.length ≥ 12 then
        let defenseType ← readU32 inputData 4
        let incomingAttackId ← readU32 inputData 8
        return s.executeDefense playerId defenseType incomingAttackId now
      else return (s, some false)
    else if actionType = 2 then
      if inputData.length ≥ 24 then
        let signType ← readU32 inputData 4
        let targetPosition ← readVector inputData 8
        return s.castSign playerId signType targetPosition now
      else return (s, some false)
    else return (s, some false)

end CombatSystemIntegration

section Fields
variable {offset : ℕ}

theorem u32At_append (front : List UInt8) (w : UInt32) (rest : List UInt8) (h : front.length = offset) :
    u32At (front ++ (le32 w.toNat ++ rest)) offset = w := by
  rw [u32At, List.drop_left' h, readLE32_le32, Nat.mod_eq_of_lt w.toNat_lt, UInt32.ofNat_toNat]

theorem vectorAt_append (front : List UInt8) (v : Vector4F) (rest : List UInt8)
    (h : front.length = offset) : vectorAt (front ++ (vectorBytes v ++ rest)) offset = v := by
  have hx := u32At_append front v.x (le32 v.y.toNat ++ le32 v.z.toNat ++ le32 v.w.toNat ++ rest) h
  have hy : u32At (front ++ le32 v.x.toNat
      ++ (le32 v.y.toNat ++ (le32 v.z.toNat ++ le32 v.w.toNat ++ rest))) (offset + 4) = v.y :=
    u32At_append _ v.y _ (by simp [h])
  have hz : u32At (front ++ le32 v.x.toNat ++ le32 v.y.toNat
      ++ (le32 v.z.toNat ++ (le32 v.w.toNat ++ rest))) (offset + 8) = v.z :=
    u32At_append _ v.z _ (by simp [h])
  have hw : u32At (front ++ le32 v.x.toNat ++ le32 v.y.toNat ++ le32 v.z.toNat
      ++ (le32 v.w.toNat ++ rest)) (offset + 12) = v.w :=
    u32At_append _ v.w rest (by simp [h])
  simp only [List.append_assoc] at hx hy hz hw
  simp only [vectorAt, vectorBytes, List.append_assoc, hx, hy, hz, hw]

variable {data : List UInt8}

theorem drop_eq_u32At (h : offset + 4 ≤ data.length) :
    data.drop offset = le32 (u32At data offset).toNat ++ data.drop (offset + 4) := by
  have hlength : 4 ≤ (data.drop offset).length := by rw [List.length_drop]; omega
  rw [u32At, UInt32.toNat_ofNat_of_lt' (readLE32_lt _), le32_readLE32 hlength, ← List.drop_drop,
    List.take_append_drop]

theorem drop_eq_vectorAt (h : offset + 16 ≤ data.length) :
    data.drop offset = vectorBytes (vectorAt data offset) ++ data.drop (offset + 16) := by
  have hx : data.drop offset = le32 (u32At data offset).toNat ++ data.drop (offset + 4) :=
    drop_eq_u32At (by omega)
  have hy : data.drop (offset + 4) = le32 (u32At data (offset + 4)).toNat ++ data.drop (offset + 8) :=
    drop_eq_u32At (by omega)
  have hz : data.drop (offset + 8) = le32 (u32At data (offset + 8)).toNat ++ data.drop (offset + 12) :=
    drop_eq_u32At (by omega)
  have hw : data.drop (offset + 12) = le32 (u32At data (offset + 12)).toNat ++ data.drop (offset + 16) :=
    drop_eq_u32At (by omega)
  rw [hx, hy, hz, hw]
  simp only [vectorBytes, vectorAt, List.append_assoc]

theorem toOption_readU32 (h : offset + 4 ≤ data.length) :
    (readU32 data offset).toOption = some (u32At data offset) := by
  have hback := u32At_append [] (u32At data offset) [] List.length_nil
  rw [List.nil_append, List.append_nil] at hback
  rw [readU32, Traced.toOption_bind, Traced.toOption_getRange, if_pos (Or.inr h), Option.bind_some,
    Traced.toOption_pure, drop_eq_u32At h, List.take_left' (length_le32 _), hback]

theorem length_vectorBytes (v : Vector4F) : (vectorBytes v).length = 16 := rfl

theorem toOption_readVector (h : offset + 16 ≤ data.length) :
    (readVector data offset).toOption = some (vectorAt data offset) := by
  have hback := vectorAt_append [] (vectorAt data offset) [] List.length_nil
  rw [List.nil_append, List.append_nil] at hback
  rw [readVector, Traced.toOption_bind, Traced.toOption_getRange, if_pos (Or.inr h), Option.bind_some,
    Traced.toOption_pure, drop_eq_vectorAt h, List.take_left' (length_vectorBytes _), hback]

end Fields

section Actions
variable {action : CombatAction}

theorem bridgeCall_attack {attackType weaponType : UInt32} {targetPosition : Vector4F}
    (htype : action.type = .attack)
    (hdata : action.data = attackData attackType weaponType targetPosition) :
    bridgeCall action = some (.executeAttack action.playerId attackType weaponType targetPosition) := by
  have hbytes : action.data
      = le32 attackType.toNat ++ (le32 weaponType.toNat ++ (vectorBytes targetPosition ++ le32 0)) := hdata
  have hattack : u32At action.data 0 = attackType := hbytes ▸ u32At_append [] attackType _ List.length_nil
  have hweapon : u32At action.data 4 = weaponType :=
    hbytes ▸ u32At_append (le32 attackType.toNat) weaponType _ (length_le32 _)
  have htarget : vectorAt action.data 8 = targetPosition := by
    rw [hbytes, ← List.append_assoc]
    exact vectorAt_append (le32 attackType.toNat ++ le32 weaponType.toNat) targetPosition _ rfl
  have hlength : action.data.length ≥ 28 := by rw [hdata]; exact le_rfl
  simp only [bridgeCall, htype]
  rw [if_pos hlength, hattack, hweapon, htarget]

theorem bridgeCall_defense {defenseType incomingAttackId : UInt32} (htype : action.type = .defense)
    (hdata : action.data = defenseData defenseType incomingAttackId) :
    bridgeCall action = some (.executeDefense action.playerId defenseType incomingAttackId) := by
  have hbytes : action.data
      = le32 defenseType.toNat ++ (le32 incomingAttackId.toNat ++ []) := hdata
  have hdefense : u32At action.data 0 = defenseType := hbytes ▸ u32At_append [] defenseType _ List.length_nil
  have hincoming : u32At action.data 4 = incomingAttackId :=
    hbytes ▸ u32At_append (le32 defenseType.toNat) incomingAttackId _ (length_le32 _)
  have hlength : action.data.length ≥ 8 := by rw [hdata]; exact le_rfl
  simp only [bridgeCall, htype]
  rw [if_pos hlength, hdefense, hincoming]

theorem bridgeCall_sign {signType : UInt32} {targetPosition : Vector4F} (htype : action.type = .sign)
    (hdata : action.data = signData signType targetPosition) :
    bridgeCall action = some (.castSign action.playerId signType targetPosition) := by
  have hbytes : action.data = le32 signType.toNat ++ (vectorBytes targetPosition ++ []) := hdata
  have hsign : u32At action.data 0 = signType := hbytes ▸ u32At_append [] signType _ List.length_nil
  have htarget : vectorAt action.data 4 = targetPosition :=
    hbytes ▸ vectorAt_append (le32 signType.toNat) targetPosition _ (length_le32 _)
  have hlength : action.data.length ≥ 20 := by rw [hdata]; exact le_rfl
  simp only [bridgeCall, htype]
  rw [if_pos hlength, hsign, htarget]

theorem bridgeCall_animation {animationType : UInt32} {isAttack : Bool}
    (htype : action.type = .animation) (hdata : action.data = animationData animationType isAttack) :
    bridgeCall action = some (if isAttack then .playAttackAnimation action.playerId animationType
      else .playDefenseAnimation action.playerId animationType) := by
  have hbytes : action.data = le32 animationType.toNat ++ ([if isAttack then 1 else 0] ++ []) := hdata
  have hanimation : u32At action.data 0 = animationType :=
    hbytes ▸ u32At_append [] animationType _ List.length_nil
  have hattack : action.data.getD 4 0 = if isAttack then 1 else 0 := by
    rw [hbytes]
    rfl
  have hlength : action.data.length ≥ 5 := by rw [hdata]; exact le_rfl
  simp only [bridgeCall, htype]
  rw [if_pos hlength, hattack, hanimation]
  cases isAttack <;> rfl

end Actions

/-- The input of a player that asks for a call: the number of the kind, then the fields of the
call, and whatever follows. -/
inductive Encoded (playerId : UInt32) : List UInt8 → BridgeCall → Prop
  | attack (attackType weaponType : UInt32) (targetPosition : Vector4F) (rest : List UInt8) :
    Encoded playerId (le32 0 ++ (le32 attackType.toNat ++ (le32 weaponType.toNat ++
      (vectorBytes targetPosition ++ rest))))
      (.executeAttack playerId attackType weaponType targetPosition)
  | defense (defenseType incomingAttackId : UInt32) (rest : List UInt8) :
    Encoded playerId (le32 1 ++ (le32 defenseType.toNat ++ (le32 incomingAttackId.toNat ++ rest)))
      (.executeDefense playerId defenseType incomingAttackId)
  | sign (signType : UInt32) (targetPosition : Vector4F) (rest : List UInt8) :
    Encoded playerId (le32 2 ++ (le32 signType.toNat ++ (vectorBytes targetPosition ++ rest)))
      (.castSign playerId signType targetPosition)

namespace CombatSystemIntegration

/-- The input asks for a call, and this new action of the player carries it. -/
structure Carries (playerId : UInt32) (inputData : List UInt8) (call : BridgeCall)
    (type : CombatActionType) (data : List UInt8) : Prop where
  encoded : Encoded playerId inputData call
  bridge : ∀ action : CombatAction, action.playerId = playerId → action.type = type →
    action.data = data → bridgeCall action = some call

section Input
variable {playerId : UInt32} {inputData : List UInt8}

theorem two_words (hlength : 8 ≤ inputData.length) :
    inputData = le32 (u32At inputData 0).toNat
      ++ (le32 (u32At inputData 4).toNat ++ inputData.drop 8) := by
  have h₀ : inputData.drop 0 = le32 (u32At inputData 0).toNat ++ inputData.drop 4 :=
    drop_eq_u32At (by omega)
  have h₄ : inputData.drop 4 = le32 (u32At inputData 4).toNat ++ inputData.drop 8 :=
    drop_eq_u32At (by omega)
  rwa [h₄, List.drop_zero] at h₀

theorem carries_attack (hlength : 28 ≤ inputData.length) (hkind : u32At inputData 0 = 0) :
    Carries playerId inputData (.executeAttack playerId (u32At inputData 4) (u32At inputData 8)
      (vectorAt inputData 12)) .attack
      (attackData (u32At inputData 4) (u32At inputData 8) (vectorAt inputData 12)) := by
  refine ⟨?_, fun action hplayer htype hdata => hplayer ▸ bridgeCall_attack htype hdata⟩
  have hwords : inputData = _ := two_words (by omega)
  have h₈ : inputData.drop 8 = le32 (u32At inputData 8).toNat ++ inputData.drop 12 :=
    drop_eq_u32At (by omega)
  have h₁₂ : inputData.drop 12 = vectorBytes (vectorAt inputData 12) ++ inputData.drop 28 :=
    drop_eq_vectorAt (by omega)
  rw [h₈, h₁₂, hkind] at hwords
  generalize u32At inputData 4 = attackType at hwords ⊢
  generalize u32At inputData 8 = weaponType at hwords ⊢
  generalize vectorAt inputData 12 = targetPosition at hwords ⊢
  rw [hwords]
  exact .attack attackType weaponType targetPosition _

theorem carries_defense (hlength : 12 ≤ inputData.length) (hkind : u32At inputData 0 = 1) :
    Carries playerId inputData (.executeDefense playerId (u32At inputData 4) (u32At inputData 8))
      .defense (defenseData (u32At inputData 4) (u32At inputData 8)) := by
  refine ⟨?_, fun action hplayer htype hdata => hplayer ▸ bridgeCall_defense htype hdata⟩
  have hwords : inputData = _ := two_words (by omega)
  have h₈ : inputData.drop 8 = le32 (u32At inputData 8).toNat ++ inputData.drop 12 :=
    drop_eq_u32At (by omega)
  rw [h₈, hkind] at hwords
  generalize u32At inputData 4 = defenseType at hwords ⊢
  generalize u32At inputData 8 = incomingAttackId at hwords ⊢
  rw [hwords]
  exact .defense defenseType incomingAttackId _

theorem carries_sign (hlength : 24 ≤ inputData.length) (hkind : u32At inputData 0 = 2) :
    Carries playerId inputData (.castSign playerId (u32At inputData 4) (vectorAt inputData 8)) .sign
      (signData (u32At inputData 4) (vectorAt inputData 8)) := by
  refine ⟨?_, fun action hplayer htype hdata => hplayer ▸ bridgeCall_sign htype hdata⟩
  have hwords : inputData = _ := two_words (by omega)
  have h₈ : inputData.drop 8 = vectorBytes (vectorAt inputData 8) ++ inputData.drop 24 :=
    drop_eq_vectorAt (by omega)
  rw [h₈, hkind] at hwords
  generalize u32At inputData 4 = signType at hwords ⊢
  generalize vectorAt inputData 8 = targetPosition at hwords ⊢
  rw [hwords]
  exact .sign signType targetPosition _

theorem toOption_processPlayerInput (s : CombatSystemIntegration) (playerId : UInt32)
    (inputData : List UInt8) (now : ℤ) :
    (s.processPlayerInput playerId inputData now).toOption = some (s, some false) ∨
      ∃ call type data, Carries playerId inputData call type data ∧
        (s.processPlayerInput playerId inputData now).toOption
          = some (s.added (s.combatOptimizer.addNewAction playerId type data now)) := by
  unfold processPlayerInput
  by_cases hinit : s.initialized
  · rw [if_neg (not_not.mpr hinit)]
    by_cases hshort : inputData.length < 4
    · rw [if_pos hshort]
      exact Or.inl (Traced.toOption_pure _)
    · rw [if_neg hshort, Traced.toOption_bind, toOption_readU32 (by omega), Option.bind_some]
      by_cases hattack : u32At inputData 0 = 0
      · rw [if_pos hattack]
        by_cases hlength : inputData.length ≥ 28
        · refine Or.inr ⟨_, _, _, carries_attack hlength hattack, ?_⟩
          rw [if_pos hlength, Traced.toOption_bind, toOption_readU32 (by omega), Option.bind_some,
            Traced.toOption_bind, toOption_readU32 (by omega), Option.bind_some, Traced.toOption_bind,
            toOption_readVector (by omega), Option.bind_some, Traced.toOption_pure, executeAttack,
            if_neg (not_not.mpr hinit)]
          rfl
        · rw [if_neg hlength]
          exact Or.inl (Traced.toOption_pure _)
      · rw [if_neg hattack]
        by_cases hdefense : u32At inputData 0 = 1
        · rw [if_pos hdefense]
          by_cases hlength : inputData.length ≥ 12
          · refine Or.inr ⟨_, _, _, carries_defense hlength hdefense, ?_⟩
            rw [if_pos hlength, Traced.toOption_bind, toOption_readU32 (by omega), Option.bind_some,
              Traced.toOption_bind, toOption_readU32 (by omega), Option.bind_some,
              Traced.toOption_pure, executeDefense, if_neg (not_not.mpr hinit)]
            rfl
          · rw [if_neg hlength]
            exact Or.inl (Traced.toOption_pure _)
        · rw [if_neg hdefense]
          by_cases hsign : u32At inputData 0 = 2
          · rw [if_pos hsign]
            by_cases hlength : inputData.length ≥ 24
            · refine Or.inr ⟨_, _, _, carries_sign hlength hsign, ?_⟩
              rw [if_pos hlength, Traced.toOption_bind, toOption_readU32 (by omega), Option.bind_some,
                Traced.toOption_bind, toOption_readVector (by omega), Option.bind_some,
                Traced.toOption_pure, castSign, if_neg (not_not.mpr hinit)]
              rfl
            · rw [if_neg hlength]
              exact Or.inl (Traced.toOption_pure _)
          · rw [if_neg hsign]
            exact Or.inl (Traced.toOption_pure _)
  · rw [if_pos hinit]
    exact Or.inl (Traced.toOption_pure _)

end Input

end CombatSystemIntegration

namespace CombatOptimizer

def newAction (s : CombatOptimizer) (playerId : UInt32) (type : CombatActionType) (data : List UInt8)
    (now : ℤ) : CombatAction where
  id := s.actionIdCounter
  playerId := playerId
  type := type
  priority := determinePriority type
  timestamp := now
  data := data

theorem addNewAction_eq (s : CombatOptimizer) (playerId : UInt32) (type : CombatActionType)
    (data : List UInt8) (now : ℤ) :
    s.addNewAction playerId type data now =
      { s with actionIdCounter := s.actionIdCounter + 1 }.addAction
        (s.newAction playerId type data now) := rfl

theorem handled_eq_bridgeCall (s : CombatOptimizer) (op : CombatOp) :
    ∀ e ∈ s.handled op, e.2 = bridgeCall e.1 := by
  intro e he
  cases op with
  | addAction action => exact absurd he List.not_mem_nil
  | processActions startTime now endTime =>
    rw [handled] at he
    obtain ⟨heq, -⟩ | ⟨s', handled, hbatched, -, -, heq⟩ := s.processActions_cases startTime now endTime
    · rw [heq] at he
      exact absurd he List.not_mem_nil
    · have hmem : e ∈ handled := by
        rw [heq] at he
        cases hheld : s.queueMutex <;> rw [hheld] at he <;> exact he
      rw [hbatched.handled] at hmem
      obtain ⟨action, -, rfl⟩ := List.mem_map.mp hmem
      rfl

end CombatOptimizer

/-- No input is read outside of its bytes. Each is turned down, or asks for one call of its player and is
handed to the optimizer as one new action, for which that call, and no other, is made whenever the action
is processed; so whatever is accepted comes back as it was sent. -/
theorem input_reaches_bridge (s : CombatSystemIntegration) (playerId : UInt32)
    (inputData : List UInt8) (now : ℤ) :
    let result := s.processPlayerInput playerId inputData now
    result.Safe ∧ (result.value = (s, some false) ∨
      ∃ call action, Encoded playerId inputData call ∧ action.processed = false ∧
        result.value = s.added ({ s.combatOptimizer with
          actionIdCounter := s.combatOptimizer.actionIdCounter + 1 }.addAction action) ∧
        ∀ s' ops, ∀ e ∈ Run.collect CombatOptimizer.combatStep CombatOptimizer.handled s' ops,
          e.1 = action → e.2 = some call) := by
  intro result
  obtain hrefused | ⟨call, type, data, hcarries, hadded⟩ :=
    CombatSystemIntegration.toOption_processPlayerInput s playerId inputData now
  · have hsafe : result.Safe := Traced.safe_iff_toOption.mpr (hrefused ▸ Option.some_ne_none _)
    exact ⟨hsafe, .inl (Option.some.inj ((if_pos hsafe).symm.trans hrefused))⟩
  · have hsafe : result.Safe := Traced.safe_iff_toOption.mpr (hadded ▸ Option.some_ne_none _)
    have hvalue : result.value = s.added (s.combatOptimizer.addNewAction playerId type data now) :=
      Option.some.inj ((if_pos hsafe).symm.trans hadded)
    rw [CombatOptimizer.addNewAction_eq] at hvalue
    refine ⟨hsafe, .inr ⟨call, s.combatOptimizer.newAction playerId type data now, hcarries.encoded, rfl,
      hvalue, fun s' ops e he heq => ?_⟩⟩
    rw [Run.forall_mem_collect CombatOptimizer.handled_eq_bridgeCall _ ops e he, heq]
    exact hcarries.bridge _ rfl rfl rfl

end WitcherMP.Combat
