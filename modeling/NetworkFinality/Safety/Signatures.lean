import NetworkFinality.Model.Crypto
import NetworkFinality.Model.Engine
import NetworkFinality.Spec.Base64
import NetworkFinality.Spec.Issue
import NetworkFinality.Spec.Sink

/-!
# Which signature texts verify

An HMAC verifier compares the decoded bytes, and the decoder is lenient. What it accepts
for a payload are the respellings of what the signer writes: any ASCII text whose letters
before the pad that ends the decoding are those of the signature, up to the two bits of
the last letter that fill no byte. Among the unpadded texts of byte strings there is one.
-/

namespace NetworkFinality

open Python Semantics Procedure

/-- The text spells the same bytes as the text without padding. Both bits of the last
letter that fill no byte are clear in the latter. -/
def Respells (text unpadded : Str) : Prop :=
  text.Ascii ∧ ∃ before rest front last,
    text ++ repadding text = before ++ .scalar '=' :: rest ∧
      (∀ shorter after, before = shorter ++ .scalar '=' :: after → ¬ Completes shorter) ∧
      letters before = front ++ [last] ∧ letters unpadded = front ++ [last / 4 * 4]

theorem length_octets (values : List Nat) :
    (octets values).length = values.length / 4 * 3 + (values.length % 4 - 1) := by
  induction values using groupInduction with
  | nil => rfl
  | one a => simp [octets]
  | two a b => simp [octets]
  | three a b c => simp [octets]
  | group a b c d rest inductionHypothesis =>
      simp only [octets, List.length_cons, inductionHypothesis]
      omega

/-- Three values behind whole groups write two bytes, which keep all but the two low bits
of the last. -/
theorem sextets_octets {values : List Nat} (small : ∀ value ∈ values, value < 64)
    (three : values.length % 4 = 3) : ∃ front last,
      values = front ++ [last] ∧ sextets (octets values) = front ++ [last / 4 * 4] := by
  induction values using groupInduction with
  | nil => simp at three
  | one a => simp at three
  | two a b => simp at three
  | three a b c =>
      simp only [List.forall_mem_cons] at small
      refine ⟨[a, b], c, rfl, ?_⟩
      simp only [octets, sextets, UInt8.toNat_ofNat', List.cons_append, List.nil_append,
        List.cons.injEq, and_true]
      omega
  | group a b c d rest inductionHypothesis =>
      simp only [List.forall_mem_cons] at small
      simp only [List.length_cons] at three
      obtain ⟨front, last, rfl, written⟩ := inductionHypothesis small.2.2.2.2 (by omega)
      refine ⟨a :: b :: c :: d :: front, last, rfl, ?_⟩
      simp only [octets, sextets, written, UInt8.toNat_ofNat', List.cons_append, List.cons.injEq,
        and_true]
      omega

/-- Which values, three behind whole groups, write the bytes. -/
theorem octets_eq_iff {values : List Nat} {data : Bytes} (small : ∀ value ∈ values, value < 64)
    (three : values.length % 4 = 3) :
    octets values = data ↔ ∃ front last,
      values = front ++ [last] ∧ sextets data = front ++ [last / 4 * 4] := by
  obtain ⟨front, last, split, written⟩ := sextets_octets small three
  constructor
  · rintro rfl
    exact ⟨front, last, split, written⟩
  · rintro ⟨front', last', split', written'⟩
    obtain ⟨rfl, equal⟩ := List.append_inj' (split.symm.trans split') rfl
    obtain rfl : last = last' := by simpa using equal
    rw [← octets_sextets (octets values), written, ← written', octets_sextets]

/-- A text decodes to bytes that end with a group of two exactly when it respells them. -/
theorem b64urlDecode_respells {text : Str} {data : Bytes} (two : data.length % 3 = 2) :
    b64urlDecode text = .ok data ↔ Respells text (b64url data) := by
  rw [b64urlDecode_eq, urlsafeB64decode_ok, Respells, letters_b64url]
  have ascii : (text ++ repadding text).Ascii ↔ text.Ascii := by
    constructor
    · intro all char member
      exact all char (List.mem_append_left _ member)
    · intro all char member
      rcases List.mem_append.mp member with inside | pad
      · exact all char inside
      · rw [List.eq_of_mem_replicate pad]
        decide
  rw [ascii]
  refine and_congr_right fun _ => ?_
  constructor
  · rintro ⟨values, ⟨before, rest, split, complete, first, rfl⟩ | ⟨-, full, rfl⟩, written⟩
    · -- After two letters there would be a group of one byte.
      have three : (letters before).length % 4 = 3 := by
        have length := congrArg List.length written
        rw [length_octets] at length
        rcases complete with three | ⟨two, -⟩
        · simpa using three
        · rw [List.nil_append] at two
          omega
      obtain ⟨front, last, read, same⟩ := (octets_eq_iff letters_lt three).mp written
      exact ⟨before, rest, front, last, split, by simpa using first, read, same⟩
    · have length := congrArg List.length written
      rw [length_octets] at length
      rw [List.nil_append] at full
      omega
  · rintro ⟨before, rest, front, last, split, first, read, same⟩
    have three : (letters before).length % 4 = 3 := by
      have length := congrArg List.length same
      rw [length_sextets] at length
      rw [read]
      simp only [List.length_append, List.length_singleton] at length ⊢
      omega
    refine ⟨letters before, .inl ⟨before, rest, split, .inl (by simpa using three), ?_, rfl⟩, ?_⟩
    · simpa using first
    · exact (octets_eq_iff letters_lt three).mpr ⟨front, last, read, same⟩

/-! ### The verifier -/

section

variable [Hmac]

/-- The verifier accepts the respellings of what a signer with its secret writes. -/
theorem HMACVerifier.verify_iff {verifier : HMACVerifier} {signer : HMACSigner}
    (secret : verifier.secret = signer.secret) (payload : Bytes) (text : Str) :
    verifier.verify payload text = true ↔ Respells text (signer.sign payload) := by
  have two : (Hmac.digest signer.secret payload).length % 3 = 2 := by
    rw [Hmac.length_digest]
  rw [HMACSigner.sign, ← b64urlDecode_respells two, HMACVerifier.verify, secret]
  cases decoded : b64urlDecode text with
  | ok bytes => simp [eq_comm]
  | error error => simp

/-- Among the unpadded texts of byte strings it accepts the signer's only. -/
theorem HMACVerifier.verify_b64url {verifier : HMACVerifier} {signer : HMACSigner}
    (secret : verifier.secret = signer.secret) (payload data : Bytes) :
    verifier.verify payload (b64url data) = true ↔ b64url data = signer.sign payload := by
  rw [HMACVerifier.verify, b64urlDecode_b64url, HMACSigner.sign, secret]
  simp only [decide_eq_true_eq]
  constructor
  · rintro rfl
    rfl
  · intro same
    exact (b64url_injective same).symm

end

/-! ### The check at the sink -/

/-- The response to a signature that does not verify. -/
def signatureRefused (request : SinkRequest) (authority : NetworkFinalityAuthority) :
    SinkVerifyResponse :=
  deny request.requestId .invalidAuthority "authority signature verification failed" ∅
    (some authority.authorityId)

/-- The call ends for another reason than a signature that does not verify. -/
def Exit.OtherThanSignature : Exit → Prop
  | .denied response => response.message ≠ some "authority signature verification failed"
  | .raised _ => True

theorem RefusedWith.otherThanSignature {request : SinkRequest} {messages : List String} {exit : Exit}
    (refused : RefusedWith request messages exit)
    (other : "authority signature verification failed" ∉ messages) : exit.OtherThanSignature := by
  cases exit with
  | denied response => exact refused.message_ne other
  | raised error => trivial

namespace NetworkFinalitySink

variable [Hashlib] {sink : NetworkFinalitySink} {request : SinkRequest} {draw : Option Str}
  {authority : NetworkFinalityAuthority} {payload : Bytes}

/-- Behind the signature check a call ends for other reasons. -/
private theorem leaves_afterSignature (accepted : sink.verifier.verify payload
      authority.issuer.signature = true) (presented : request.authority = some authority)
    (keyId : authority.issuer.keyId = sink.verifier.keyId)
    (algorithm : authority.issuer.algorithm = sink.verifier.algorithm)
    (encoded : unsignedAuthorityPayload authority = .ok payload) :
    (sink.verifyAndEffectuate request draw).Leaves Exit.OtherThanSignature := by
  have recognized : ¬ (authority.issuer.keyId ≠ sink.verifier.keyId ∨
      authority.issuer.algorithm ≠ sink.verifier.algorithm) := by
    simp [keyId, algorithm]
  have verified : ¬ sink.verifier.verify payload authority.issuer.signature = false := by
    simp [accepted]
  have authenticated (now : DateTime) : (sink.authenticate request now).Leaves
      (RefusedWith request guardMessages) := by
    simp only [authenticate, presented, encoded, orRefuse_some, orRaise_ok, done_bind,
      exitIf_neg recognized, exitIf_neg verified]
    exact Leaves.bind (leaves_refuses (by decide)) fun _ => .done _
  have guards : (sink.verify request).Leaves (RefusedWith request guardMessages) :=
    Leaves.bind leaves_perform fun now => Leaves.bind (authenticated now) fun _ => matched_leaves
  refine Leaves.bind (guards.mono fun _ refused =>
    refused.otherThanSignature (by decide)) fun _ => ?_
  exact effectuate_leaves.mono fun _ refused => refused.otherThanSignature (by decide)

/-- A call whose authority carries the verifier's key ends at the signature check exactly
when the signature does not verify. -/
theorem signature_check (presented : request.authority = some authority)
    (keyId : authority.issuer.keyId = sink.verifier.keyId)
    (algorithm : authority.issuer.algorithm = sink.verifier.algorithm)
    (encoded : unsignedAuthorityPayload authority = .ok payload) (world : World) :
    (sink.verifyAndEffectuate request draw).run World.exec world =
        (.error (.denied (signatureRefused request authority)), world) ↔
      sink.verifier.verify payload authority.issuer.signature = false := by
  constructor
  · intro ran
    by_contra accepted
    rw [Bool.not_eq_false] at accepted
    have leaves : (sink.verifyAndEffectuate request draw).Leaves Exit.OtherThanSignature :=
      leaves_afterSignature accepted presented keyId algorithm encoded
    have path := trace_path World.exec (sink.verifyAndEffectuate request draw) world
    rw [ran] at path
    exact leaves.reason path rfl
  · intro refused
    have recognized : ¬ (authority.issuer.keyId ≠ sink.verifier.keyId ∨
        authority.issuer.algorithm ≠ sink.verifier.algorithm) := by
      simp [keyId, algorithm]
    simp only [verifyAndEffectuate, verify, authenticate, presented, encoded, orRefuse_some,
      orRaise_ok, done_bind, exitIf_neg recognized, exitIf_pos refused, ask, perform, call_bind,
      exit_bind, run_call, run_exit, signatureRefused]
    rw [World.exec_readOnly rfl]

end NetworkFinalitySink

section

variable [Hmac] [Hashlib]

/-- A verifier accepts what spells the bytes that a signer with its secret writes, which
no other unpadded text of a byte string does. Another signature text on an authority of
the signer is refused at the signature check exactly when it is not such a spelling. -/
theorem signature_spellings (verifier : HMACVerifier) (signer : HMACSigner)
    (secret : verifier.secret = signer.secret) (payload : Bytes) (text : Str) :
    (verifier.verify payload text = true ↔ Respells text (signer.sign payload)) ∧
      (∀ data, text = b64url data →
        (verifier.verify payload text = true ↔ text = signer.sign payload)) ∧
      ∀ (sink : NetworkFinalitySink) (request : SinkRequest) (authority : NetworkFinalityAuthority)
        (draw : Option Str) (world : World), sink.verifier = verifier.toVerifier →
        authority.issuer.keyId = verifier.keyId → authority.issuer.algorithm = verifier.algorithm →
        unsignedAuthorityPayload authority = .ok payload →
        request.authority = some (authority.withSignature text) →
        ((sink.verifyAndEffectuate request draw).run World.exec world =
            (.error (.denied (signatureRefused request authority)), world) ↔
          ¬ Respells text (signer.sign payload)) := by
  have spelled := HMACVerifier.verify_iff secret payload text
  refine ⟨spelled, ?_, ?_⟩
  · rintro data rfl
    exact HMACVerifier.verify_b64url secret payload data
  · intro sink request authority draw world held keyId algorithm encoded presented
    have key : (authority.withSignature text).issuer.keyId = sink.verifier.keyId := by
      rw [held]
      exact keyId
    have name : (authority.withSignature text).issuer.algorithm = sink.verifier.algorithm := by
      rw [held]
      exact algorithm
    have refused : (sink.verifyAndEffectuate request draw).run World.exec world =
          (.error (.denied (signatureRefused request authority)), world) ↔
        sink.verifier.verify payload text = false :=
      NetworkFinalitySink.signature_check presented key name encoded world
    have verify : sink.verifier.verify = verifier.verify := by rw [held, HMACVerifier.toVerifier]
    rw [refused, verify, ← spelled, Bool.not_eq_true]

end

/-- The key of an issued authority, and what its signature covers. -/
private theorem issued_issuer [Hashlib] {ped : ProtectedEnforcementDomain} {draws : IssueDraws}
    {candidate : NetworkCandidateAct} {before after : World} {decision : NetworkValidationDecision}
    {authority : NetworkFinalityAuthority}
    (ran : (ped.validateAndIssue draws candidate).run World.exec before =
      (.ok ⟨decision, some authority⟩, after)) :
    authority.issuer.keyId = ped.signer.keyId ∧
      authority.issuer.algorithm = ped.signer.algorithm ∧
      ∃ payload, unsignedAuthorityPayload authority = .ok payload := by
  obtain ⟨past, returned, -⟩ := (run_ok_iff World.exec).mp ran
  obtain ⟨now, evidence, activation, facts⟩ :=
    ProtectedEnforcementDomain.issued_of_returns returned
  obtain ⟨payload, encoded, issuer⟩ := facts.prepared.issuer
  rw [issuer]
  exact ⟨rfl, rfl, payload, encoded⟩

namespace Reference

def hmac : HMACSigner where
  secret := [115, 107]

/-- The sink of the reference run with an HMAC verifier. -/
def hmacSink : NetworkFinalitySink :=
  { start.sink with verifier := @HMACVerifier.toVerifier .checksum hmac.verifier }

/-- The request with four other letters as its signature. -/
def tampered : SinkRequest :=
  { request with authority := some (authority.withSignature "AAAA") }

end Reference

/-- Other letters are no spelling of a reference signature, and the sink refuses them at the
signature check. -/
theorem signature_spellings_tampered : ∃ payload,
    ¬ Respells "AAAA" (@HMACSigner.sign .checksum Reference.hmac payload) ∧
      (@NetworkFinalitySink.verifyAndEffectuate .checksum Reference.hmacSink Reference.tampered
          none).run (@World.exec .checksum) Reference.issuedWorld =
        (.error (.denied (signatureRefused Reference.tampered Reference.authority)),
          Reference.issuedWorld) := by
  obtain ⟨decision, ran⟩ := Reference.issued_authority
  rw [Reference.issued] at ran
  obtain ⟨keyId, algorithm, payload, encoded⟩ := @issued_issuer .checksum _ _ _ _ _ _ _ ran
  obtain ⟨spelled, -, refused⟩ := @signature_spellings .checksum .checksum
    Reference.hmac.verifier Reference.hmac rfl payload "AAAA"
  have short : b64urlDecode "AAAA" = .ok [0, 0, 0] := by decide
  have other : ¬ Respells "AAAA" (@HMACSigner.sign .checksum Reference.hmac payload) := by
    rw [← spelled]
    unfold HMACVerifier.verify
    rw [short]
    intro same
    have length := congrArg List.length (of_decide_eq_true same)
    rw [@Hmac.length_digest .checksum] at length
    exact absurd length (by decide)
  exact ⟨payload, other, (refused Reference.hmacSink Reference.tampered Reference.authority none
    Reference.issuedWorld rfl keyId algorithm encoded rfl).mpr other⟩

/-- Two other texts verify beside the signature itself: one with a pad behind it, and one
with another last letter. -/
theorem signature_second_spelling :
    @HMACSigner.sign .checksum Reference.hmac [97, 98, 99] =
        "CT1iQHYAAAAAAAAAAAAAAAAAAAAAAAAAAAAAAAAAAAA" ∧
      @HMACVerifier.verify .checksum Reference.hmac.verifier [97, 98, 99]
        "CT1iQHYAAAAAAAAAAAAAAAAAAAAAAAAAAAAAAAAAAAA=" = true ∧
      @HMACVerifier.verify .checksum Reference.hmac.verifier [97, 98, 99]
        "CT1iQHYAAAAAAAAAAAAAAAAAAAAAAAAAAAAAAAAAAAB" = true ∧
      ¬ ∀ text, @HMACVerifier.verify .checksum Reference.hmac.verifier [97, 98, 99] text = true ↔
        text = @HMACSigner.sign .checksum Reference.hmac [97, 98, 99] := by
  have written : @HMACSigner.sign .checksum Reference.hmac [97, 98, 99] =
      "CT1iQHYAAAAAAAAAAAAAAAAAAAAAAAAAAAAAAAAAAAA" := by decide +kernel
  have padded : @HMACVerifier.verify .checksum Reference.hmac.verifier [97, 98, 99]
      "CT1iQHYAAAAAAAAAAAAAAAAAAAAAAAAAAAAAAAAAAAA=" = true := by decide +kernel
  have altered : @HMACVerifier.verify .checksum Reference.hmac.verifier [97, 98, 99]
      "CT1iQHYAAAAAAAAAAAAAAAAAAAAAAAAAAAAAAAAAAAB" = true := by decide +kernel
  refine ⟨written, padded, altered, ?_⟩
  intro only
  have same := (only _).mp padded
  rw [written] at same
  exact absurd same (by decide)

end NetworkFinality
