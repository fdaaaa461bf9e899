/-!
# Sets of texts

Finite sets of texts, kept as strictly increasing lists so that equal sets are equal values.
-/

namespace Triage

/-- A finite set of texts in the order of their code points. -/
structure TextSet where
  toList : List String
  sorted : toList.Pairwise (· < ·)
deriving DecidableEq

namespace TextSet

/-- The increasing list `ts` with `t` at its place. -/
def insertText (t : String) : List String → List String
  | [] => [t]
  | u :: us => if t < u then t :: u :: us else if t = u then u :: us else u :: insertText t us

theorem mem_insertText {t x : String} {us : List String} :
    x ∈ insertText t us ↔ x = t ∨ x ∈ us := by
  induction us with
  | nil => simp [insertText]
  | cons u us ih =>
    unfold insertText
    split
    · simp
    · split
      case isTrue eq => simp [eq]
      case isFalse => simp [ih, or_left_comm]

theorem sorted_insertText {t : String} {us : List String} (h : us.Pairwise (· < ·)) :
    (insertText t us).Pairwise (· < ·) := by
  induction us with
  | nil => simp [insertText]
  | cons u us ih =>
    have hs := List.pairwise_cons.1 h
    unfold insertText
    split
    case isTrue lt =>
      exact List.pairwise_cons.2 ⟨fun x hx => (List.mem_cons.1 hx).elim (fun e => e ▸ lt)
        (fun hx => String.lt_trans lt (hs.1 x hx)), h⟩
    case isFalse nlt =>
      split
      case isTrue => exact h
      case isFalse ne =>
        refine List.pairwise_cons.2 ⟨fun x hx => ?_, ih hs.2⟩
        rcases mem_insertText.1 hx with rfl | hx
        · exact Classical.byContradiction fun h' =>
            ne (String.le_antisymm (String.not_lt.1 h') (String.not_lt.1 nlt))
        · exact hs.1 x hx

/-- The set without members. -/
def empty : TextSet := ⟨[], .nil⟩

/-- The set with `t` added. -/
def insert (s : TextSet) (t : String) : TextSet :=
  ⟨insertText t s.toList, sorted_insertText s.sorted⟩

/-- The set of the members of a list. -/
def ofList (ts : List String) : TextSet := ts.foldl insert empty

/-- Whether `t` is a member. -/
def contains (s : TextSet) (t : String) : Bool := s.toList.contains t

/-- The number of members. -/
def size (s : TextSet) : Nat := s.toList.length

instance : EmptyCollection TextSet := ⟨empty⟩

instance : Inhabited TextSet := ⟨empty⟩

theorem ext_toList {s t : TextSet} (h : s.toList = t.toList) : s = t := by
  cases s; cases t; simp_all

theorem mem_toList_insert {s : TextSet} {t x : String} :
    x ∈ (s.insert t).toList ↔ x = t ∨ x ∈ s.toList := mem_insertText

end TextSet

end Triage
