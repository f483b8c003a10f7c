import RemoteFiles.Proofs.Json.Documents
import RemoteFiles.Proofs.Transport

/-!
# The body of a request

The body is a document with a document inside a string, so what a script holds is escaped twice.
Reading undoes both layers, and the two documents have just the members they should have.

## Main definitions

* `positiveMember` — a member for a number that is set and not zero.

## Main results

* `Transport.body_eq_iff` — which runs have the same body.
* `Transport.body_tells_script` — **a body is read as the documents it should be, and two runs have
  the same body only where all that is to be told agrees.**
-/

namespace RemoteFiles

open Json

/-- A member for a number that is set and not zero. -/
def positiveMember (name : String) : Option UInt32 → List (String × Value)
  | some n => if 0 < n then [(name, .count n.toNat)] else []
  | none => []

/-! ### Optional numbers -/

/-- A number that is not set counts as zero, and zero as not set. -/
theorem positive_eq (n : Option UInt32) :
    positive n = if 0 < n.getD 0 then some (n.getD 0) else none := by
  cases n with
  | none => rfl
  | some n =>
    rw [positive, Option.filter_some]
    by_cases h : 0 < n
    · rw [if_pos (decide_eq_true h)]
      exact (if_pos h).symm
    · rw [if_neg (by rwa [decide_eq_true_eq])]
      exact (if_neg h).symm

theorem getD_positive (n : Option UInt32) : (positive n).getD 0 = n.getD 0 := by
  rw [positive_eq]
  by_cases h : 0 < n.getD 0
  · rw [if_pos h]
    rfl
  · rw [if_neg h]
    exact (Decidable.not_not.mp (mt UInt32.pos_iff_ne_zero.mpr h)).symm

theorem positive_eq_iff {m n : Option UInt32} : positive m = positive n ↔ m.getD 0 = n.getD 0 := by
  constructor
  · intro h
    rw [← getD_positive m, h, getD_positive]
  · intro h
    rw [positive_eq, h, ← positive_eq]

theorem optionalCount_positive (name : String) (n : Option UInt32) :
    optionalCount name (positive n) = positiveMember name n := by
  rw [positive_eq]
  cases n with
  | none => rfl
  | some n =>
    rw [Option.getD_some, positiveMember]
    by_cases h : 0 < n
    · rw [if_pos h, if_pos h]
      rfl
    · rw [if_neg h, if_neg h]
      rfl

/-- A member tells whether a number is set and not zero, and which number it is. -/
theorem positiveMember_inj {name : String} {m n : Option UInt32}
    (h : positiveMember name m = positiveMember name n) : m.getD 0 = n.getD 0 := by
  rw [← optionalCount_positive, ← optionalCount_positive, optionalCount, optionalCount] at h
  rw [← getD_positive m, ← getD_positive n]
  -- a member is there exactly where the number is
  cases hm : positive m with
  | none =>
    cases hn : positive n with
    | none => rfl
    | some b => rw [hm, hn] at h; cases h
  | some a =>
    cases hn : positive n with
    | none => rw [hm, hn] at h; cases h
    | some b =>
      rw [hm, hn] at h
      simp only [Option.map_some, Option.toList_some, List.cons.injEq, Prod.mk.injEq,
        Value.count.injEq, UInt32.toNat_inj, and_true, true_and] at h
      rw [h]

/-! ### The two documents -/

/-- The value of an invocation. -/
theorem Invocation.toJson_ofScript (i : Identity) (code : String) :
    (Invocation.ofScript i code).toJson = .record (
      [("ToolId", .text i.toolId), ("SessionId", .text i.sessionId),
        ("UserSessionId", .text i.userSessionId),
        ("OperationPayload", .text (Payload.ofCode code i.executionTimeout).toJson.write),
        ("OperationType", .text "RunCode")] ++ positiveMember "Ttl" i.sessionTtl) := by
  rw [← optionalCount_positive]
  rfl

/-- The value of a payload. -/
theorem Payload.toJson_ofCode (code : String) (timeout : Option UInt32) :
    (Payload.ofCode code timeout).toJson = .record (
      [("code", .text code), ("kernelName", .text "python3")] ++
        positiveMember "timeout" timeout) := by
  rw [← optionalCount_positive]
  rfl

/-- A count of 32 bits is exact. -/
theorem isExact_of_mem_positiveMember {name : String} {n : Option UInt32} {m : String × Value}
    (h : m ∈ positiveMember name n) : m.2.IsExact := by
  cases n with
  | none => cases h
  | some n =>
    rw [positiveMember] at h
    by_cases hn : 0 < n
    · rw [if_pos hn, List.mem_singleton] at h
      rw [h]
      exact .count (Nat.lt_trans n.toNat_lt (by decide))
    · rw [if_neg hn] at h
      cases h

theorem Invocation.isExact_ofScript (i : Identity) (code : String) :
    (Invocation.ofScript i code).toJson.IsExact := by
  rw [toJson_ofScript]
  refine .record fun m hm => ?_
  rcases List.mem_append.mp hm with hm | hm
  · simp only [List.mem_cons, List.not_mem_nil, or_false] at hm
    rcases hm with rfl | rfl | rfl | rfl | rfl <;> exact .text _
  · exact isExact_of_mem_positiveMember hm

theorem Payload.isExact_ofCode (code : String) (timeout : Option UInt32) :
    (Payload.ofCode code timeout).toJson.IsExact := by
  rw [toJson_ofCode]
  refine .record fun m hm => ?_
  rcases List.mem_append.mp hm with hm | hm
  · simp only [List.mem_cons, List.not_mem_nil, or_false] at hm
    rcases hm with rfl | rfl <;> exact .text _
  · exact isExact_of_mem_positiveMember hm

/-- Payloads with the same text have the same script and the same limit. -/
theorem Payload.write_ofCode_inj {code code' : String} {timeout timeout' : Option UInt32}
    (h : (Payload.ofCode code timeout).toJson.write = (Payload.ofCode code' timeout').toJson.write) :
    code = code' ∧ timeout.getD 0 = timeout'.getD 0 := by
  have hvalue := Value.encode_write_inj (isExact_ofCode code timeout) (isExact_ofCode code' timeout')
    (congrArg Utf8.encode h)
  rw [toJson_ofCode, toJson_ofCode] at hvalue
  simp only [Value.record.injEq, List.cons_append, List.nil_append, List.cons.injEq, Prod.mk.injEq,
    Value.text.injEq, true_and] at hvalue
  exact ⟨hvalue.1, positiveMember_inj hvalue.2⟩

namespace Transport

/-- Two runs have the same body exactly where the names and the session, the script and the two
limits agree; a limit that is not set agrees with a limit of zero. -/
theorem body_eq_iff (t t' : Transport) (code code' : String) :
    t.body code = t'.body code' ↔
      t.identity.toolId = t'.identity.toolId ∧ t.identity.sessionId = t'.identity.sessionId ∧
      t.identity.userSessionId = t'.identity.userSessionId ∧ code = code' ∧
      t.identity.sessionTtl.getD 0 = t'.identity.sessionTtl.getD 0 ∧
      t.identity.executionTimeout.getD 0 = t'.identity.executionTimeout.getD 0 := by
  constructor
  · intro h
    -- the same bytes are the same value, and the payload in it is the same text
    have hvalue := Value.encode_write_inj (Invocation.isExact_ofScript t.identity code)
      (Invocation.isExact_ofScript t'.identity code') h
    rw [Invocation.toJson_ofScript, Invocation.toJson_ofScript] at hvalue
    simp only [Value.record.injEq, List.cons_append, List.nil_append, List.cons.injEq,
      Prod.mk.injEq, Value.text.injEq, true_and] at hvalue
    obtain ⟨htool, hsession, huser, hpayload, httl⟩ := hvalue
    obtain ⟨hcode, htimeout⟩ := Payload.write_ofCode_inj hpayload
    exact ⟨htool, hsession, huser, hcode, positiveMember_inj httl, htimeout⟩
  · rintro ⟨htool, hsession, huser, rfl, httl, htimeout⟩
    have hinvocation :
        Invocation.ofScript t.identity code = Invocation.ofScript t'.identity code := by
      unfold Invocation.ofScript Payload.ofCode
      rw [htool, hsession, huser, positive_eq_iff.mpr httl, positive_eq_iff.mpr htimeout]
    rw [body, body, hinvocation]

/-- **A body is read as the documents it should be.**  The members of both are just those that are
told here, the limits among them only where they are set and not zero.  A run sends the body once
or sends nothing, and two runs have the same body only where all that is told agrees. -/
theorem body_tells_script [Url.Names] (t : Transport) (code : String) (now : Int) (peer : Peer) :
    (∃ payload : String,
      decode Value.read (t.body code) = .ok (.record (
        [("ToolId", .text t.identity.toolId), ("SessionId", .text t.identity.sessionId),
          ("UserSessionId", .text t.identity.userSessionId), ("OperationPayload", .text payload),
          ("OperationType", .text "RunCode")] ++
            positiveMember "Ttl" t.identity.sessionTtl)) ∧
      decode Value.read (Utf8.encode payload) = .ok (.record (
        [("code", .text code), ("kernelName", .text "python3")] ++
          positiveMember "timeout" t.identity.executionTimeout))) ∧
    ((t.run now peer code).sent.map Request.body = [] ∨
      (t.run now peer code).sent.map Request.body = [t.body code]) ∧
    ∀ (t' : Transport) (code' : String), t.body code = t'.body code' ↔
      t.identity.toolId = t'.identity.toolId ∧ t.identity.sessionId = t'.identity.sessionId ∧
      t.identity.userSessionId = t'.identity.userSessionId ∧ code = code' ∧
      t.identity.sessionTtl.getD 0 = t'.identity.sessionTtl.getD 0 ∧
      t.identity.executionTimeout.getD 0 = t'.identity.executionTimeout.getD 0 := by
  refine ⟨⟨(Payload.ofCode code t.identity.executionTimeout).toJson.write, ?_, ?_⟩, ?_, ?_⟩
  · rw [← Invocation.toJson_ofScript]
    exact Value.decode_write (Invocation.isExact_ofScript t.identity code)
  · rw [← Payload.toJson_ofCode]
    exact Value.decode_write (Payload.isExact_ofCode code t.identity.executionTimeout)
  · rcases t.sent_run now peer code with hsent | ⟨url, host, _, _, hsent⟩
    · left
      rw [hsent]
      rfl
    · right
      rw [hsent]
      rfl
  · exact fun t' code' => t.body_eq_iff t' code code'

end Transport
end RemoteFiles
