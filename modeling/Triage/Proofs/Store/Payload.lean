import Triage.Proofs.Codec.Exact
import Triage.Proofs.Result
import Triage.Store.Row

/-!
# Payloads are read as they are written

A payload within the limit is read back as the value that it was made of: a changelog entry always,
an issue if its effort is a finite number whose digits are read as that number.
-/

namespace Triage

namespace Payload

variable {α : Type} [JsonForm α] {a b : α} {bytes : ByteArray}

/-- The number of bytes of the payload of a value, counted from its characters. -/
def size (a : α) : Nat := (((toJson a).tokens.flatMap Json.Token.chars).map Char.utf8Size).sum

theorem size_toUTF8_jsonText (a : α) : (jsonText a).toUTF8.size = size a := by
  simp [jsonText, Json.print, size, String.toUTF8_eq_toByteArray, List.utf8Encode,
    List.length_flatMap]

/-- Whether the payload of `a` is within the limit and read as `a`. -/
structure Keeps (a : α) : Prop where
  size_le : (jsonText a).toUTF8.size ≤ maxPayloadBytes
  read : ofJsonText? (jsonText a) = some a

theorem checkSize_eq_ok (h : bytes.size ≤ maxPayloadBytes) :
    checkSize bytes = .ok () :=
  if_neg (Nat.not_lt.2 h)

theorem of_encode_eq_ok (h : encode a = .ok bytes) :
    bytes = (jsonText a).toUTF8 ∧ (jsonText a).toUTF8.size ≤ maxPayloadBytes := by
  unfold encode at h
  obtain ⟨u, hsize, h⟩ := bind_eq_ok.1 h
  refine ⟨(pure_eq_ok.1 h).symm, Nat.le_of_not_lt fun hlarge => ?_⟩
  rw [checkSize, if_pos hlarge] at hsize
  cases hsize

theorem encode_eq (hsize : (jsonText a).toUTF8.size ≤ maxPayloadBytes) :
    encode a = .ok (jsonText a).toUTF8 := by
  rw [encode, checkSize_eq_ok hsize]
  rfl

theorem Keeps.encode_eq (h : Keeps a) : encode a = .ok (jsonText a).toUTF8 :=
  Payload.encode_eq h.size_le

theorem decode_eq (hsize : (jsonText a).toUTF8.size ≤ maxPayloadBytes)
    (hread : ofJsonText? (jsonText a) = some b) : decode (jsonText a).toUTF8 = .ok b := by
  rw [decode, checkSize_eq_ok hsize, ofJsonBytes?_toUTF8, hread]
  rfl

theorem Keeps.decode_eq (h : Keeps a) : decode (jsonText a).toUTF8 = .ok a :=
  Payload.decode_eq h.size_le h.read

end Payload

namespace IssueRow

/-- The row that an issue is kept as. -/
def of (i : Issue) : IssueRow := ⟨i.createdAt, i.updatedAt, .blob (jsonText i).toUTF8⟩

variable {i j : Issue}

theorem ofIssue_eq_of_size_le (hsize : (jsonText i).toUTF8.size ≤ maxPayloadBytes) :
    ofIssue i = .ok (of i) := by
  rw [ofIssue, Payload.encode_eq hsize]
  rfl

theorem ofIssue_eq (h : Payload.Keeps i) : ofIssue i = .ok (of i) :=
  ofIssue_eq_of_size_le h.size_le

theorem bytes?_of (i : Issue) : (of i).bytes? = .ok (jsonText i).toUTF8 := rfl

/-- The row of an issue is read as any issue that its payload is read as, if the key and the stamps
agree. -/
theorem decode_of_eq_of_read (h : Payload.decode (jsonText i).toUTF8 = .ok j)
    (hkey : j.key = i.key) (hcreated : j.createdAt = i.createdAt)
    (hupdated : j.updatedAt = i.updatedAt) :
    (of i).decode i.key (jsonText i).toUTF8 = .ok j := by
  rw [decode, h, ok_bind]
  simp [of, hkey, hcreated, hupdated, pure, Except.pure]

theorem decode_of_eq (h : Payload.Keeps i) :
    (of i).decode i.key (jsonText i).toUTF8 = .ok i :=
  decode_of_eq_of_read h.decode_eq rfl rfl rfl

end IssueRow

theorem ChangeRow.decode_eq {c : IssueChange} (h : Payload.Keeps c) :
    ChangeRow.decode c.issueKey (jsonText c).toUTF8 = .ok c := by
  rw [decode, h.decode_eq]
  simp [bind, Except.bind, pure, Except.pure]

/-! ## Efforts -/

namespace Binary64

/-- Whether the number is finite and read as it is written. -/
structure Exact (x : Binary64) : Prop where
  isFinite : x.isFinite = true
  read : ofJsonText? (jsonText x) = some x

instance (x : Binary64) : Decidable x.Exact :=
  decidable_of_iff (x.isFinite = true ∧ ofJsonText? (jsonText x) = some x)
    ⟨fun h => ⟨h.1, h.2⟩, fun h => ⟨h.1, h.2⟩⟩

theorem Exact.readsAs {x : Binary64} (h : x.Exact) : ReadsAs (some x) (some x) := by
  have hread : JsonForm.ofJson? (toJson x) = some x := by
    have htext := h.read
    rwa [ofJsonText?, jsonText, Json.parse?_print (proper_binary64 x)] at htext
  have hform : toJson x = .number ⟨x.negative, Decimal.Style.data.numeral x⟩ := if_pos h.isFinite
  refine ReadsAs.some ⟨proper_binary64 x, hread⟩ ?_
  rw [hform]
  rintro ⟨⟩

end Binary64

namespace Payload

theorem keeps_issue {i : Issue} (hsize : (jsonText i).toUTF8.size ≤ maxPayloadBytes)
    (heffort : ∀ x ∈ i.effortToFix, x.Exact) : Keeps i := by
  have hreads : ReadsAs i.effortToFix i.effortToFix := by
    rcases he : i.effortToFix with _ | x
    · exact readsAs_none
    · exact (heffort x he).readsAs
  exact ⟨hsize, (readsAs_issue hreads).ofJsonText?⟩

theorem keeps_change {c : IssueChange} (hsize : (jsonText c).toUTF8.size ≤ maxPayloadBytes) :
    Keeps c :=
  ⟨hsize, (ExactForm.readsAs c).ofJsonText?⟩

end Payload

end Triage
