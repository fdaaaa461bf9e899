import Triage.Json.Parser
import Triage.Proofs.Json.Scan

/-!
# Values are read as they are written

The reader takes the tokens of a value from any place where a value may stand to the place behind
it, with the frames around it as they were.  With the scanner before it, the text of a value whose
numbers and strings have a written form is read as that value.
-/

namespace Triage.Json

/-! ## The reader -/

namespace Reader

/-- The first item of an array is read like any other. -/
theorem foldlM_firstItem {ts : List Token} {fs : List Frame} {r : Reader} (hne : ts ≠ [])
    (h : ts.foldlM step? ⟨.value, .array [] :: fs⟩ = some r) :
    ts.foldlM step? ⟨.firstItem, fs⟩ = some r := by
  obtain ⟨t, ts, rfl⟩ := List.exists_cons_of_ne_nil hne
  have hstep : step? ⟨.firstItem, fs⟩ t = step? ⟨.value, .array [] :: fs⟩ t := by
    cases t with
    | closeArray => cases h
    | _ => rfl
  rw [List.foldlM_cons] at h ⊢
  rwa [hstep]

theorem foldlM_firstMember {ms : List (JsonText × Json)} {fs : List Frame} {r : Reader}
    (hne : ms ≠ [])
    (h : (memberTokens ms ++ [Token.closeObject]).foldlM step? ⟨.member [], fs⟩ = some r) :
    (memberTokens ms ++ [Token.closeObject]).foldlM step? ⟨.firstMember, fs⟩ = some r := by
  obtain ⟨⟨k, j⟩, ms, rfl⟩ := List.exists_cons_of_ne_nil hne
  rcases ms with _ | ⟨m, ms⟩
  · exact h
  · simp only [memberTokens] at h ⊢
    exact h

mutual

theorem foldlM_tokens : ∀ (j : Json) (fs : List Frame),
    j.tokens.foldlM step? ⟨.value, fs⟩ = some ⟨.complete j, fs⟩
  | .null, _ => rfl
  | .bool _, _ => rfl
  | .number _, _ => rfl
  | .string _, _ => rfl
  | .array items, fs => by
    have hitems := foldlM_itemTokens items [] fs
    by_cases hne : items = []
    · subst hne
      rfl
    · exact foldlM_firstItem (by simp) (hitems hne)
  | .object members, fs => by
    have hmembers := foldlM_memberTokens members [] fs
    by_cases hne : members = []
    · subst hne
      rfl
    · exact foldlM_firstMember hne (hmembers hne)

theorem foldlM_itemTokens : ∀ (js done : List Json) (fs : List Frame), js ≠ [] →
    (itemTokens js ++ [Token.closeArray]).foldlM step? ⟨.value, .array done :: fs⟩ =
      some ⟨.complete (.array (done.reverse ++ js)), fs⟩
  | [], _, _ => nofun
  | j :: js, done, fs => by
    have hj := foldlM_tokens j (.array done :: fs)
    have hjs := foldlM_itemTokens js (j :: done) fs
    intro _
    rcases js with _ | ⟨j', js⟩
    · rw [itemTokens, List.foldlM_append, hj]
      simp [step?]
    · rw [itemTokens, List.append_assoc, List.foldlM_append, hj]
      · simpa [step?] using hjs
      · simp

theorem foldlM_memberTokens : ∀ (ms done : List (JsonText × Json)) (fs : List Frame), ms ≠ [] →
    (memberTokens ms ++ [Token.closeObject]).foldlM step? ⟨.member done, fs⟩ =
      some ⟨.complete (.object (done.reverse ++ ms)), fs⟩
  | [], _, _ => nofun
  | (k, j) :: ms, done, fs => by
    have hj := foldlM_tokens j (.object done k :: fs)
    have hms := foldlM_memberTokens ms ((k, j) :: done) fs
    intro _
    rcases ms with _ | ⟨m, ms⟩
    · simp only [memberTokens, List.cons_append, List.foldlM_cons, List.foldlM_append]
      simp [step?, hj]
    · simp only [memberTokens, List.cons_append, List.foldlM_cons, List.foldlM_append]
      simpa [step?, hj] using hms

end

end Reader

/-! ## Rows of tokens of a value -/

theorem Token.isChain_cons {ts : List Token} {t : Token} (ht : t.isBare = false)
    (hts : ts.IsChain Parts) : (t :: ts).IsChain Parts := by
  refine List.isChain_cons.2 ⟨fun t' _ hbare => ?_, hts⟩
  cases ht.symm.trans hbare

theorem Token.isChain_append_cons {ts ts' : List Token} {t : Token} (hts : ts.IsChain Parts)
    (ht : t.isBare = false) (hts' : ts'.IsChain Parts) : (ts ++ t :: ts').IsChain Parts := by
  refine List.isChain_append.2 ⟨hts, Token.isChain_cons ht hts', ?_⟩
  rintro t' _ _ ⟨⟩ _
  exact ht

mutual

/-- Two values stand side by side only with a mark between them. -/
theorem isChain_tokens : ∀ j : Json, j.tokens.IsChain Token.Parts
  | .null | .bool _ | .number _ | .string _ => List.isChain_singleton _
  | .array items =>
    Token.isChain_cons rfl (Token.isChain_append_cons (isChain_itemTokens items) rfl .nil)
  | .object members =>
    Token.isChain_cons rfl (Token.isChain_append_cons (isChain_memberTokens members) rfl .nil)

theorem isChain_itemTokens : ∀ js : List Json, (itemTokens js).IsChain Token.Parts
  | [] => .nil
  | j :: js => by
    have hj := isChain_tokens j
    have hjs := isChain_itemTokens js
    rcases js with _ | ⟨j', js⟩
    · exact hj
    · exact Token.isChain_append_cons hj rfl hjs

theorem isChain_memberTokens :
    ∀ ms : List (JsonText × Json), (memberTokens ms).IsChain Token.Parts
  | [] => .nil
  | (k, j) :: ms => by
    have hj := isChain_tokens j
    have hms := isChain_memberTokens ms
    have hmember (ts : List Token) (hts : ts.IsChain Token.Parts) :
        (Token.string k :: .colon :: ts).IsChain Token.Parts :=
      Token.isChain_cons rfl (Token.isChain_cons rfl hts)
    rcases ms with _ | ⟨m, ms⟩
    · exact hmember _ hj
    · exact hmember _ (Token.isChain_append_cons hj rfl hms)

end

/-! ## Texts -/

/-- Whether every number and string of the value has a written form. -/
def Proper (j : Json) : Prop := ∀ t ∈ j.tokens, t.Proper

theorem parse?_print {j : Json} (hj : j.Proper) : parse? j.print = some j := by
  have hscan : scan? ((j.tokens.flatMap Token.chars).map some) = some j.tokens :=
    scan?_flatMap_chars hj (isChain_tokens j)
  have hread : j.tokens.foldlM Reader.step? {} = some ⟨.complete j, []⟩ :=
    Reader.foldlM_tokens j []
  rw [parse?, print, String.toList_ofList, hscan, Option.bind_some, ofTokens?, hread]
  rfl

/-- The bytes of a text are read as the text is. -/
theorem parseBytes?_toUTF8 (s : String) : parseBytes? s.toUTF8 = parse? s := by
  rw [parseBytes?, Text.characters_toUTF8, parse?]

theorem mem_itemTokens {js : List Json} {t : Token} (h : t ∈ itemTokens js) :
    t = .comma ∨ ∃ j ∈ js, t ∈ j.tokens := by
  induction js with
  | nil => cases h
  | cons j js ih =>
    rcases js with _ | ⟨j', js⟩
    · exact .inr ⟨j, List.mem_cons_self, h⟩
    · rcases List.mem_append.1 h with h | h
      · exact .inr ⟨j, List.mem_cons_self, h⟩
      · rcases List.mem_cons.1 h with h | h
        · exact .inl h
        · obtain h | ⟨i, hi, ht⟩ := ih h
          · exact .inl h
          · exact .inr ⟨i, List.mem_cons_of_mem _ hi, ht⟩

theorem mem_memberTokens {ms : List (JsonText × Json)} {t : Token} (h : t ∈ memberTokens ms) :
    t = .comma ∨ t = .colon ∨ ∃ m ∈ ms, t = .string m.1 ∨ t ∈ m.2.tokens := by
  induction ms with
  | nil => cases h
  | cons m ms ih =>
    obtain ⟨k, j⟩ := m
    have hsplit : t = .string k ∨ t = .colon ∨ t ∈ j.tokens ∨ t = .comma ∨
        t ∈ memberTokens ms := by
      rcases ms with _ | ⟨m, ms⟩
      · have h' : t = .string k ∨ t = .colon ∨ t ∈ j.tokens := by simpa [memberTokens] using h
        exact h'.imp_right fun h => h.imp_right .inl
      · simpa [memberTokens, or_assoc] using h
    rcases hsplit with h | h | h | h | h
    · exact .inr (.inr ⟨_, List.mem_cons_self, .inl h⟩)
    · exact .inr (.inl h)
    · exact .inr (.inr ⟨_, List.mem_cons_self, .inr h⟩)
    · exact .inl h
    · obtain h | h | ⟨m, hm, ht⟩ := ih h
      · exact .inl h
      · exact .inr (.inl h)
      · exact .inr (.inr ⟨m, List.mem_cons_of_mem _ hm, ht⟩)

theorem proper_array {items : List Json} (h : ∀ j ∈ items, j.Proper) : (array items).Proper := by
  intro t ht
  simp only [tokens, List.mem_append, List.mem_cons, List.not_mem_nil, or_false] at ht
  rcases ht with (rfl | ht) | rfl
  · trivial
  · obtain rfl | ⟨j, hj, ht⟩ := mem_itemTokens ht
    · trivial
    · exact h j hj t ht
  · trivial

theorem proper_record {members : List (String × Json)} (h : ∀ m ∈ members, m.2.Proper) :
    (record members).Proper := by
  intro t ht
  simp only [record, tokens, List.mem_append, List.mem_cons, List.not_mem_nil, or_false] at ht
  rcases ht with (rfl | ht) | rfl
  · trivial
  · obtain rfl | rfl | ⟨m, hm, ht⟩ := mem_memberTokens ht
    · trivial
    · trivial
    · obtain ⟨m, hmem, rfl⟩ := List.mem_map.1 hm
      rcases ht with rfl | ht
      · rfl
      · exact h m hmem t ht
  · trivial

end Triage.Json
