import Triage.Proofs.Decimal.Finite
import Triage.Proofs.Store.Checks
import Triage.Proofs.Store.Reread

/-!
# Payloads and values

Every payload that is written is read as the value that it was made of, and no two values have one
payload between them.  What is read of a payload, however it is spelled, is written as one that is
read as the same again.  The digits of an effort are the one thing that this rests on.
-/

namespace Triage

/-! ## Texts -/

/-- Values with one text have one form. -/
theorem toJson_eq_of_jsonText_eq {α β : Type} [JsonForm α] [JsonForm β] {a : α} {b : β}
    (ha : (toJson a).Proper) (hb : (toJson b).Proper) (h : jsonText a = jsonText b) :
    toJson a = toJson b := by
  have hparse := congrArg Json.parse? h
  rwa [jsonText, jsonText, Json.parse?_print ha, Json.parse?_print hb, Option.some.injEq] at hparse

/-- The first members of the two have different names. -/
theorem jsonText_issue_ne_change (i : Issue) (c : IssueChange) : jsonText i ≠ jsonText c := by
  intro h
  have hform := toJson_eq_of_jsonText_eq i.readsAs_reread.proper (ExactForm.readsAs c).proper h
  have hfirst := (List.cons.inj (Json.object.inj hform)).1
  exact absurd (Prod.mk.inj hfirst).1 (by simp)

/-! ## Efforts that are read -/

theorem isFinite_of_ofJson? {j : Json} {x : Binary64} (h : JsonForm.ofJson? j = some x) :
    x.isFinite = true := by
  cases j with
  | number n => exact Numeral.isFinite_of_toBinary64? h
  | _ => cases h

theorem isFinite_of_optionalField {r : Record Json} {name : String} {effort : Option Binary64}
    (h : r.optionalField name = some effort) : ∀ x ∈ effort, x.isFinite = true := by
  rintro x rfl
  unfold Record.optionalField Record.withDefault at h
  split at h
  case h_1 => cases h
  case h_2 j _ =>
    have hread : Json.nullable? JsonForm.ofJson? j = some (some x) := h
    unfold Json.nullable? at hread
    split at hread
    case h_1 => cases hread
    case h_2 =>
      obtain ⟨y, hy, hyx⟩ := Option.map_eq_some_iff.1 hread
      cases hyx
      exact isFinite_of_ofJson? hy

theorem IssueFields.optionalField_of_ofRecord? {r : Record Json} {f : IssueFields}
    (h : ofRecord? r = some f) : r.optionalField "effort_to_fix" = some f.effortToFix := by
  unfold ofRecord? at h
  -- one step for each field
  iterate 17 obtain ⟨_, _, h⟩ := Option.bind_eq_some_iff.1 h
  cases h
  assumption

/-- The effort of an issue that was read is finite, if there is one. -/
theorem Issue.isFinite_of_ofJson? {j : Json} {i : Issue} (h : JsonForm.ofJson? j = some i) :
    ∀ x ∈ i.effortToFix, x.isFinite = true := by
  obtain ⟨f, hf, rfl⟩ := Option.map_eq_some_iff.1 h
  obtain ⟨r, -, hr⟩ := Option.bind_eq_some_iff.1 hf
  exact isFinite_of_optionalField (IssueFields.optionalField_of_ofRecord? hr)

/-! ## Payloads -/

namespace Payload

variable {bytes : ByteArray} {i j : Issue} {c d : IssueChange}

/-- What was written of an issue is read as the issue reread. -/
theorem decode_of_encode_issue (h : encode i = .ok bytes) : decode bytes = .ok i.reread := by
  obtain ⟨rfl, hsize⟩ := of_encode_eq_ok h
  exact decode_eq hsize i.readsAs_reread.ofJsonText?

theorem decode_of_encode_change (h : encode c = .ok bytes) : decode bytes = .ok c := by
  obtain ⟨rfl, hsize⟩ := of_encode_eq_ok h
  exact (keeps_change hsize).decode_eq

theorem isFinite_of_decode (h : decode bytes = .ok i) : ∀ x ∈ i.effortToFix, x.isFinite = true := by
  obtain ⟨j, -, hj⟩ := Option.bind_eq_some_iff.1 (decode_eq_ok.1 h).2
  exact Issue.isFinite_of_ofJson? hj

theorem encode_issue_ne_change (h : encode i = .ok bytes) : encode c ≠ .ok bytes := by
  intro hc
  have htext : (jsonText i).toUTF8 = (jsonText c).toUTF8 :=
    (of_encode_eq_ok h).1.symm.trans (of_encode_eq_ok hc).1
  exact jsonText_issue_ne_change i c (String.toByteArray_inj.1 htext)

end Payload

theorem IssueRow.decode_of_encode {i : Issue} {bytes : ByteArray} (key : IssueKey) (r : IssueRow)
    (h : Payload.encode i = .ok bytes) (heffort : ∀ x ∈ i.effortToFix, x.Exact)
    (hkey : i.key = key) (hcreated : i.createdAt = r.createdAt)
    (hupdated : i.updatedAt = r.updatedAt) : r.decode key bytes = .ok i := by
  have hdecode := Payload.decode_of_encode_issue h
  rw [Issue.reread_eq_self_iff.2 heffort] at hdecode
  exact decode_eq_ok.2 ⟨hdecode, hkey, hcreated, hupdated⟩

theorem ChangeRow.decode_of_encode {c : IssueChange} {bytes : ByteArray}
    (h : Payload.encode c = .ok bytes) : decode c.issueKey bytes = .ok c :=
  decode_eq_ok.2 ⟨Payload.decode_of_encode_change h, rfl⟩

/-- If the finite numbers among their efforts are read as they are written: an issue with a finite
effort or none is read, beside its key and stamps, as it was written, and so is a changelog entry;
no two of them have one payload; and an issue that was read of any payload is written as one that
is read as the same issue and that is written of it again. -/
theorem Payload.round_trip :
    (∀ (i : Issue) (bytes : ByteArray), (∀ x ∈ i.effortToFix, x.Exact) → encode i = .ok bytes →
      IssueRow.decode i.key ⟨i.createdAt, i.updatedAt, .blob bytes⟩ bytes = .ok i) ∧
    (∀ (c : IssueChange) (bytes : ByteArray), encode c = .ok bytes →
      ChangeRow.decode c.issueKey bytes = .ok c) ∧
    (∀ (i j : Issue) (bytes : ByteArray), (∀ x ∈ i.effortToFix, x.Exact) →
      (∀ x ∈ j.effortToFix, x.Exact) → encode i = .ok bytes → encode j = .ok bytes → i = j) ∧
    (∀ (c d : IssueChange) (bytes : ByteArray), encode c = .ok bytes → encode d = .ok bytes →
      c = d) ∧
    (∀ (i : Issue) (c : IssueChange) (bytes : ByteArray), encode i = .ok bytes →
      encode c ≠ .ok bytes) ∧
    ∀ (key : IssueKey) (r : IssueRow) (i : Issue) (bytes bytes' : ByteArray),
      r.decode key bytes = .ok i → (∀ x ∈ i.effortToFix, x.isFinite = true → x.Exact) →
      encode i = .ok bytes' →
      r.decode key bytes' = .ok i ∧ (r.decode key bytes' >>= fun j => encode j) = .ok bytes' := by
  refine ⟨fun i bytes heffort hi => ?_, fun c bytes hc => ChangeRow.decode_of_encode hc,
    fun i j bytes hi hj hiw hjw => ?_, fun c d bytes hc hd => ?_,
    fun i c bytes hi => encode_issue_ne_change hi, fun key r i bytes bytes' hread heffort hi => ?_⟩
  · exact IssueRow.decode_of_encode i.key _ hi heffort rfl rfl rfl
  · have hsame : i.reread = j.reread := Except.ok.inj
      ((decode_of_encode_issue hiw).symm.trans (decode_of_encode_issue hjw))
    rwa [Issue.reread_eq_self_iff.2 hi, Issue.reread_eq_self_iff.2 hj] at hsame
  · exact Except.ok.inj ((decode_of_encode_change hc).symm.trans (decode_of_encode_change hd))
  · obtain ⟨hdecode, hkey, hcreated, hupdated⟩ := IssueRow.decode_eq_ok.1 hread
    have hexact : ∀ x ∈ i.effortToFix, x.Exact := fun x hx =>
      heffort x hx (isFinite_of_decode hdecode x hx)
    have hagain := IssueRow.decode_of_encode key r hi hexact hkey hcreated hupdated
    exact ⟨hagain, by rw [hagain, ok_bind, hi]⟩

/-- A closed issue with marks and escapes in its texts and a negative zero for its effort. -/
def sampleMarked : Issue :=
  { key := ⟨"a"⟩, ruleKey := ⟨"xoo:x1"⟩, severity := .blocker, componentKey := ⟨"sample:A"⟩,
    componentUuid := ⟨"F1"⟩, projectUuid := ⟨""⟩, line := some 4294967295,
    effortToFix := some ⟨0x8000000000000000⟩, status := .closed, resolution := some .falsePositive,
    assignee := some ⟨"ada \"a\""⟩, actionPlanKey := none, tags := .ofList ["b\\", "", "é😀"],
    message := some "line\n\x00", reporter := none, createdAt := ⟨Int64.minValue⟩,
    updatedAt := ⟨-1⟩ }

/-- Another spelling of the issue: a row of its fields with blanks and escapes, and a tag twice. -/
def sampleSpelling : String :=
  "[ \"\\u0061\", \"xoo:x1\", \"BLOCKER\", \"sample:A\", \"F1\", \"\", 4294967295, -0e7, " ++
  "\"CLOSED\", \"FALSE-POSITIVE\", \"ada \\\"a\\\"\", null, [\"é😀\", \"b\\u005C\", \"\", \"\"], " ++
  "\"line\\n\\u0000\", null, -9223372036854775808, -1]"

/-- The issue is read of the other spelling, and of the one that it is then written as. -/
theorem Payload.round_trip_sample :
    (∀ x ∈ sampleMarked.effortToFix, x.Exact) ∧
    IssueRow.decode ⟨"a"⟩ ⟨⟨Int64.minValue⟩, ⟨-1⟩, .text ""⟩ sampleSpelling.toUTF8 =
      .ok sampleMarked ∧
    encode sampleMarked = .ok (jsonText sampleMarked).toUTF8 ∧
    IssueRow.decode ⟨"a"⟩ ⟨⟨Int64.minValue⟩, ⟨-1⟩, .text ""⟩ (jsonText sampleMarked).toUTF8 =
      .ok sampleMarked := by
  have hexact : ∀ x ∈ sampleMarked.effortToFix, x.Exact := by
    rintro x ⟨⟩
    decide +kernel
  have hencode : encode sampleMarked = .ok (jsonText sampleMarked).toUTF8 := by
    refine (keeps_issue ?_ hexact).encode_eq
    rw [size_toUTF8_jsonText]
    decide +kernel
  have hdecode : decode sampleSpelling.toUTF8 = .ok sampleMarked := by
    refine decode_eq_ok.2 ⟨by decide +kernel, ?_⟩
    rw [ofJsonBytes?_toUTF8]
    decide +kernel
  have hread : IssueRow.decode ⟨"a"⟩ ⟨⟨Int64.minValue⟩, ⟨-1⟩, .text ""⟩ sampleSpelling.toUTF8 =
      .ok sampleMarked := IssueRow.decode_eq_ok.2 ⟨hdecode, rfl, rfl, rfl⟩
  obtain ⟨-, -, -, -, -, hagain⟩ := round_trip
  exact ⟨hexact, hread, hencode,
    (hagain _ _ _ _ _ hread (fun x hx _ => hexact x hx) hencode).1⟩

end Triage
