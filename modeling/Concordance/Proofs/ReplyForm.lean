import Concordance.Assessment.Prompt
import Concordance.Proofs.EmbeddedObjects
import Concordance.Proofs.JsonWriting
import Concordance.Proofs.Lists

set_option autoImplicit false

/-!
# Replies in the agreed form

The prompt asks for an object with certain keys. A reply that has all of them, in any order, with
any blanks and escapes, is read as just the assessment that it states: the keys that the prompt
names are keys that the reader knows, the names of severities are understood, a score is taken digit
by digit, and every text comes back from its literal. The issues of the assessment then follow the
reviewer's remarks one by one.
-/

namespace Concordance

open Text JsonValue

/-! ## The agreed form -/

namespace Prompt

/-- The pieces before those that start with a colon. -/
def beforeColons : List Text → List Text
  | piece :: next :: rest =>
    if startsWith ":" next then piece :: beforeColons (next :: rest)
    else beforeColons (next :: rest)
  | _ => []

/-- The keys that the form of replies has: what stands in quotes with a colon behind it. -/
def askedKeys : List Text := beforeColons (replyFormat.splitOn '"')

end Prompt

namespace Reply

/-- What a reply can say in the agreed form. -/
structure FullReply where
  alignment : Text
  score : Nat
  score_le : score ≤ 100
  purpose : Text
  quality : Text
  issues : List Remark
  suggestions : List Text

/-- The members of the object for an issue. -/
def remarkFields (r : Remark) : List (Text × JsonValue) :=
  [("severity", .text r.gravity.name), ("description", .text r.description),
    ("suggestion", .text r.suggestion)]

/-- A value is an object with the given members in some order. -/
def HasFields (fields : List (Text × JsonValue)) (v : JsonValue) : Prop :=
  ∃ named, named.Perm fields ∧ v = .record named

namespace FullReply

/-- The members of the object for a reply, with the objects for its issues. -/
def fields (r : FullReply) (issues : List JsonValue) : List (Text × JsonValue) :=
  [("alignment", .text r.alignment), ("score", .nat r.score),
    ("purposeAlignment", .text r.purpose), ("implementationQuality", .text r.quality),
    ("issues", .array issues), ("suggestions", .texts r.suggestions)]

/-- The object for a reply, with its members in the order of the prompt. -/
def encode (r : FullReply) : JsonValue :=
  .record (r.fields (r.issues.map fun i => .record (remarkFields i)))

/-- A text is a reply in the agreed form. -/
def IsWrittenAs (r : FullReply) (o : Text) : Prop :=
  ∃ issues v, List.Forall₂ (fun i w => HasFields (remarkFields i) w) r.issues issues ∧
    HasFields (r.fields issues) v ∧ Spells (.element v) o

/-- The assessment that a reply states. -/
def assessment (r : FullReply) : Assessment :=
  { alignment := some r.alignment, score := some r.score, purposeNote := r.purpose,
    qualityNote := r.quality, issues := r.issues, suggestions := r.suggestions }

end FullReply

/-- An issue of the checker conveys a reviewer's remark. -/
structure Conveys (r : Remark) (i : Issue) : Prop where
  category : i.category = .purposeAlignment
  critical : r.gravity = .critical → i.severity = .error
  major : r.gravity = .major → i.severity = .warning
  minor : r.gravity = .minor → i.severity = .info
  message : i.message = r.description
  suggestion : ∀ t, i.suggestion = some t ↔ t = r.suggestion ∧ t ≠ []

/-! ## Members -/

/-- A record gives back its names and values. -/
theorem keyed?_record (named : List (Text × JsonValue)) :
    keyed? (named.map fun m => (some m.1, m.2)) = some named := by
  apply mapM_of_forall₂
  rw [List.forall₂_map_right_iff, List.forall₂_same]
  exact fun m _ => rfl

/-- The one member with a key of the given ones is found wherever it stands. -/
theorem member?_of_perm {α : Type} {keys : List Text} {absent : α} {decode : JsonValue → Option α}
    {named fields : List (Text × JsonValue)} {m : Text × JsonValue} {a : α}
    (h : named.Perm fields) (hone : (fields.filter fun f => f.1 ∈ keys) = [m])
    (hdecode : decode m.2 = some a) : member? keys absent decode named = some a := by
  have hfound : (named.filter fun f => f.1 ∈ keys) = [m] := by
    have hperm := h.filter fun f => f.1 ∈ keys
    rw [hone] at hperm
    exact hperm.eq_singleton
  unfold member?
  rw [hfound]
  exact hdecode

/-- A gravity is read back from its name. -/
theorem gravity?_name (g : Gravity) : gravity? (.text g.name) = some g := by
  cases g <;> rfl

/-- A number is read back from its digits. -/
theorem natOfDigits_ofNat (n : Nat) : Numeral.natOfDigits (Text.ofNat n) = n := by
  have hread : Nat.ofDigitChars 10 (Nat.toDigits 10 n) 0 = n := Nat.ofDigitChars_ten_toDigits
  rw [Nat.ofDigitChars_eq_foldl] at hread
  simpa [Numeral.natOfDigits, Text.ofNat, Nat.mul_comm] using hread

/-- A score of at most a hundred is read back. -/
theorem score?_nat {n : Nat} (h : n ≤ 100) : score? (.nat n) = some (some n) := by
  have hlimit : ¬ Numeral.significandLimit < n := by
    unfold Numeral.significandLimit
    omega
  have hnat : (Numeral.ofNat n).nat? = some n := by
    simp [Numeral.nat?, Numeral.ofNat, natOfDigits_ofNat, hlimit]
  have hpercentage : (Numeral.ofNat n).percentage? = some n := by
    unfold Numeral.percentage?
    rw [hnat]
    simp [h]
  simp [score?, JsonValue.nat, hpercentage]

/-- A list of texts is read back. -/
theorem list?_text?_texts (l : List Text) : list? text? (.texts l) = some l := by
  apply mapM_of_forall₂
  rw [List.forall₂_map_right_iff, List.forall₂_same]
  exact fun m _ => rfl

/-- An object with the fields of a remark is read as that remark. -/
theorem remark?_of_hasFields {r : Remark} {v : JsonValue} (h : HasFields (remarkFields r) v) :
    remark? v = some r := by
  obtain ⟨named, hperm, rfl⟩ := h
  have hseverity : member? ["severity"] .minor gravity? named = some r.gravity :=
    member?_of_perm hperm rfl (gravity?_name r.gravity)
  have hdescription : member? ["description"] [] text? named = some r.description :=
    member?_of_perm hperm rfl rfl
  have hsuggestion : member? ["suggestion"] [] text? named = some r.suggestion :=
    member?_of_perm hperm rfl rfl
  simp only [JsonValue.record, remark?, keyed?_record, hseverity, hdescription, hsuggestion,
    Option.bind_eq_bind, Option.bind_some]

/-- An object with the fields of a reply is read as its assessment. -/
theorem assessment?_of_hasFields {r : FullReply} {issues : List JsonValue} {v : JsonValue}
    (hissues : List.Forall₂ (fun i w => HasFields (remarkFields i) w) r.issues issues)
    (h : HasFields (r.fields issues) v) : assessment? v = some r.assessment := by
  obtain ⟨named, hperm, rfl⟩ := h
  have halignment : member? ["alignment"] none optionalText? named = some (some r.alignment) :=
    member?_of_perm hperm rfl rfl
  have hscore : member? ["score"] none score? named = some (some r.score) :=
    member?_of_perm hperm rfl (score?_nat r.score_le)
  have hpurpose : member? purposeKeys none optionalText? named = some (some r.purpose) :=
    member?_of_perm hperm rfl rfl
  have hquality : member? qualityKeys none optionalText? named = some (some r.quality) :=
    member?_of_perm hperm rfl rfl
  have hremarks : member? ["issues"] [] (list? remark?) named = some r.issues :=
    member?_of_perm hperm rfl (mapM_of_forall₂ (hissues.imp fun _ _ => remark?_of_hasFields))
  have hsuggestions : member? ["suggestions"] [] (list? text?) named = some r.suggestions :=
    member?_of_perm hperm rfl (list?_text?_texts r.suggestions)
  simp only [JsonValue.record, assessment?, keyed?_record, halignment, hscore, hpurpose, hquality,
    hremarks, hsuggestions, Option.bind_eq_bind, Option.bind_some]
  rfl

/-! ## Replies -/

/-- A text that spells a value has the assessment that is read from the value. -/
theorem parse_of_spells {v : JsonValue} {o : Text} {a : Assessment} (ho : Spells (.element v) o)
    (ha : assessment? v = some a) : parse o = a := by
  obtain ⟨before, u, after, hbefore, hu, -, rfl⟩ := ho.exists_value
  have hbrace : '\x7b' ∉ before := by
    intro hmem
    cases hbefore _ hmem
  have hobject : IsObject u := by
    cases v with
    | object list => exact ⟨list, hu⟩
    | _ => cases ha
  have hread : JsonValue.read? u = some v := read?_eq_some_iff.mpr hu.element_of_value
  unfold parse
  rw [← List.append_assoc, firstObject?_append hbrace hobject, Option.bind_some, hread,
    Option.bind_some, ha]
  rfl

/-- The issue made from a remark conveys it. -/
theorem conveys_issueOf (location : Location) (r : Remark) :
    Conveys r (Assessment.issueOf location r) := by
  refine ⟨rfl, ?_, ?_, ?_, rfl, ?_⟩
  · intro h
    simp [Assessment.issueOf, h, Gravity.severity]
  · intro h
    simp [Assessment.issueOf, h, Gravity.severity]
  · intro h
    simp [Assessment.issueOf, h, Gravity.severity]
  · intro t
    unfold Assessment.issueOf
    by_cases hempty : r.suggestion = []
    · rw [hempty]
      simp
    · rw [if_neg (by simpa using hempty)]
      constructor
      · rintro ⟨⟩
        exact ⟨rfl, hempty⟩
      · rintro ⟨rfl, -⟩
        rfl

/-- A record can be written if its values can. -/
theorem isWritable_record {named : List (Text × JsonValue)} (h : ∀ m ∈ named, IsWritable m.2) :
    IsWritable (.record named) :=
  .object (List.forall_mem_map.mpr h)

/-- A list of texts can be written. -/
theorem isWritable_texts (l : List Text) : IsWritable (.texts l) :=
  .array (List.forall_mem_map.mpr fun t _ => .string (some t))

/-- A remark can be written. -/
theorem isWritable_remark (r : Remark) : IsWritable (.record (remarkFields r)) := by
  apply isWritable_record
  simp only [remarkFields, List.forall_mem_cons]
  exact ⟨.string _, .string _, .string _, by simp⟩

/-- A reply can be written. -/
theorem isWritable_encode (r : FullReply) : IsWritable r.encode := by
  apply isWritable_record
  simp only [FullReply.fields, List.forall_mem_cons]
  exact ⟨.string _, .number (isNumeral_ofNat _), .string _, .string _,
    .array (List.forall_mem_map.mpr fun i _ => isWritable_remark i), isWritable_texts _, by simp⟩

/-- What is written for a reply is a form of it. -/
theorem isWrittenAs_write (r : FullReply) : r.IsWrittenAs (write r.encode) := by
  refine ⟨_, _, ?_, ⟨_, .refl _, rfl⟩, (spells_write (isWritable_encode r)).element_of_value⟩
  rw [List.forall₂_map_right_iff, List.forall₂_same]
  exact fun i _ => ⟨_, .refl _, rfl⟩

/-- The keys that the prompt asks for are those of a reply and of a remark. -/
theorem askedKeys_perm (r : FullReply) (issues : List JsonValue) (remark : Remark) :
    Prompt.askedKeys.Perm ((r.fields issues ++ remarkFields remark).map Prod.fst) := by
  change Prompt.askedKeys.Perm ["alignment", "score", "purposeAlignment", "implementationQuality",
    "issues", "suggestions", "severity", "description", "suggestion"]
  decide +kernel

/-- A reply in the form that the prompt asks for, with just the keys that it names, is decoded
without loss, whatever its layout. It can be written for everything that a reply may say. The issues
of its assessment convey the remarks, one by one and in order. -/
theorem full_reply_decoded (r : FullReply) :
    (∀ issues remark, Prompt.askedKeys.Perm
      ((r.fields issues ++ remarkFields remark).map Prod.fst)) ∧
    r.IsWrittenAs (write r.encode) ∧
    ∀ o, r.IsWrittenAs o →
      parse o = r.assessment ∧
      ∀ location, List.Forall₂ Conveys r.issues ((parse o).toIssues location) := by
  refine ⟨askedKeys_perm r, isWrittenAs_write r, ?_⟩
  rintro o ⟨issues, v, hissues, hfields, ho⟩
  have hparse : parse o = r.assessment :=
    parse_of_spells ho (assessment?_of_hasFields hissues hfields)
  refine ⟨hparse, fun location => ?_⟩
  rw [hparse]
  exact List.forall₂_map_right_iff.mpr (List.forall₂_same.mpr fun i _ => conveys_issueOf location i)

/-- A reply with quotes, braces and control characters in its texts. -/
def sampleReply : FullReply :=
  { alignment := "partial", score := 72, score_le := by decide, purpose := "serves \"most\"\n\x01",
    quality := [], suggestions := ["test \x7bit\x7d", "\\"],
    issues := [⟨.critical, "no delete", "add it"⟩, ⟨.minor, "odd naming", []⟩] }

/-- A reply with quotes, braces and control characters is read back from what is written for it. -/
theorem sample_reply_decoded :
    sampleReply.IsWrittenAs (write sampleReply.encode) ∧
      parse (write sampleReply.encode) =
        { alignment := some ("partial" : Text), score := some 72,
          purposeNote := "serves \"most\"\n\x01", qualityNote := [],
          issues := [⟨.critical, "no delete", "add it"⟩, ⟨.minor, "odd naming", []⟩],
          suggestions := ["test \x7bit\x7d", "\\"] } ∧
      List.Forall₂ Conveys sampleReply.issues
        ((parse (write sampleReply.encode)).toIssues { file := "concepts/Team.ts" }) := by
  obtain ⟨-, hwritten, hdecoded⟩ := full_reply_decoded sampleReply
  obtain ⟨hparse, hissues⟩ := hdecoded _ hwritten
  exact ⟨hwritten, hparse, hissues _⟩

end Reply

end Concordance
