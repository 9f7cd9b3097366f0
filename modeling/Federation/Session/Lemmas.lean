import Federation.Session.Basic

/-!
What is outstanding and trusted on a session after each of the operations that add to it or take
from it. Domains are compared in lowercase, pairs as they are.
-/

namespace Federation.Session

theorem hasKeyRequest_addKeyRequest (s : Session) (domain other : String) :
    (s.addKeyRequest domain).hasKeyRequest other =
      (Text.lower other == Text.lower domain || s.hasKeyRequest other) := by
  rw [Bool.eq_iff_iff]
  simp [hasKeyRequest, addKeyRequest, List.mem_insert_iff]

theorem hasKeyRequest_dropKeyRequest (s : Session) (domain other : String) :
    (s.dropKeyRequest domain).hasKeyRequest other =
      (Text.lower other != Text.lower domain && s.hasKeyRequest other) := by
  rw [Bool.eq_iff_iff]
  simp [hasKeyRequest, dropKeyRequest, and_comm]

theorem hasVerifyRequest_addVerifyRequest (s : Session) (domain other id otherId : String) :
    (s.addVerifyRequest domain id).hasVerifyRequest other otherId =
      ((Text.lower other, otherId) == (Text.lower domain, id) ||
        s.hasVerifyRequest other otherId) := by
  rw [Bool.eq_iff_iff]
  simp only [hasVerifyRequest, addVerifyRequest, List.contains_iff_mem, List.mem_insert_iff,
    Bool.or_eq_true, beq_iff_eq]

theorem hasVerifyRequest_dropVerifyRequest (s : Session) (domain other id otherId : String) :
    (s.dropVerifyRequest domain id).hasVerifyRequest other otherId =
      ((Text.lower other, otherId) != (Text.lower domain, id) &&
        s.hasVerifyRequest other otherId) := by
  rw [Bool.eq_iff_iff]
  simp only [hasVerifyRequest, dropVerifyRequest, List.contains_iff_mem, List.mem_filter,
    Bool.and_eq_true, and_comm]

theorem isTrustedFor_markTrusted (s : Session) (pair other : DomainPair) :
    (s.markTrusted pair).isTrustedFor other = (other == pair || s.isTrustedFor other) := by
  rw [Bool.eq_iff_iff]
  simp [isTrustedFor, markTrusted, List.mem_insert_iff]

theorem setPhase_of_isFinal {s : Session} (h : s.phase.isFinal) (phase : Phase) :
    s.setPhase phase = s := by
  simp [setPhase, h]

end Federation.Session
