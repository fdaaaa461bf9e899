import Mathlib.Data.List.Basic
import Triage.Files.Path

/-!
# Pieces of a path

What is put before a path or after it, if there is no slash in it, lengthens the first piece of the
path or the last one and no other.  So a path with names of the right length has an overlong name
after that just if its first piece is overlong now, or its last one.
-/

namespace Triage.Path

variable {c : Char} {cs lead trail piece : List Char} {p : Path}

/-! ## Cutting -/

theorem pieces_ne_nil (cs : List Char) : pieces cs ≠ [] := by
  induction cs with
  | nil => exact List.cons_ne_nil _ _
  | cons c cs ih =>
    rw [pieces]
    split_ifs
    · exact List.cons_ne_nil _ _
    · split <;> exact List.cons_ne_nil _ _

/-- The piece before the first slash. -/
def first (p : Path) : String := .ofList ((pieces p.text.toList).head (pieces_ne_nil _))

/-- The piece after the last slash. -/
def last (p : Path) : String := .ofList ((pieces p.text.toList).getLast (pieces_ne_nil _))

theorem pieces_cons_of_ne (h : c ≠ '/') (cs : List Char) :
    ∃ q ps, pieces cs = q :: ps ∧ pieces (c :: cs) = (c :: q) :: ps := by
  rw [pieces, if_neg h]
  cases hcs : pieces cs with
  | nil => exact absurd hcs (pieces_ne_nil cs)
  | cons q ps => exact ⟨q, ps, rfl, rfl⟩

/-- What is put before a path lengthens its first piece. -/
theorem pieces_append_left (h : '/' ∉ lead) (cs : List Char) :
    ∃ q ps, pieces cs = q :: ps ∧ pieces (lead ++ cs) = (lead ++ q) :: ps := by
  induction lead with
  | nil => exact (List.exists_cons_of_ne_nil (pieces_ne_nil cs)).imp fun q ⟨ps, h⟩ => ⟨ps, h, h⟩
  | cons c lead ih =>
    rw [List.mem_cons, not_or] at h
    obtain ⟨q, ps, hcs, hlead⟩ := ih h.2
    obtain ⟨q', ps', hcons, hpieces⟩ := pieces_cons_of_ne (Ne.symm h.1) (lead ++ cs)
    obtain ⟨rfl, rfl⟩ := List.cons.inj (hlead.symm.trans hcons)
    exact ⟨q, ps, hcs, hpieces⟩

/-- What is put after a path lengthens its last piece. -/
theorem pieces_append_right (h : '/' ∉ trail) (cs : List Char) :
    ∃ ps q, pieces cs = ps ++ [q] ∧ pieces (cs ++ trail) = ps ++ [q ++ trail] := by
  induction cs with
  | nil =>
    obtain ⟨q, ps, hnil, htrail⟩ := pieces_append_left h []
    obtain ⟨rfl, rfl⟩ := List.cons.inj hnil
    exact ⟨[], [], rfl, by simpa using htrail⟩
  | cons c cs ih =>
    obtain ⟨ps, q, hcs, htrail⟩ := ih
    by_cases hc : c = '/'
    · subst hc
      exact ⟨[] :: ps, q, congrArg ([] :: ·) hcs, congrArg ([] :: ·) htrail⟩
    · obtain ⟨r, rs, hr, hcons⟩ := pieces_cons_of_ne hc cs
      obtain ⟨r', rs', hr', hcons'⟩ := pieces_cons_of_ne hc (cs ++ trail)
      rw [List.cons_append, hcons, hcons']
      rw [hcs] at hr
      rw [htrail] at hr'
      cases ps with
      | nil =>
        obtain ⟨rfl, rfl⟩ := List.cons.inj hr
        obtain ⟨rfl, rfl⟩ := List.cons.inj hr'
        exact ⟨[], c :: q, rfl, rfl⟩
      | cons r'' ps =>
        obtain ⟨rfl, rfl⟩ := List.cons.inj hr
        obtain ⟨rfl, rfl⟩ := List.cons.inj hr'
        exact ⟨(c :: r'') :: ps, q, rfl, rfl⟩

/-- With something before a path and after it, the pieces between the first and the last one are
pieces of the path. -/
theorem mem_pieces_append (hlead : '/' ∉ lead) (htrail : '/' ∉ trail)
    (hp : p.text.toList = lead ++ cs ++ trail) (hpiece : piece ∈ pieces p.text.toList) :
    piece ∈ pieces cs ∨ .ofList piece = p.first ∨ .ofList piece = p.last := by
  obtain ⟨ps, q, hcs, hright⟩ := pieces_append_right htrail cs
  obtain ⟨r, rs, hr, hleft⟩ := pieces_append_left hlead (cs ++ trail)
  rw [← List.append_assoc, ← hp] at hleft
  rw [hleft, List.mem_cons] at hpiece
  rcases hpiece with rfl | hpiece
  · refine .inr (.inl (congrArg String.ofList ?_))
    simp only [hleft, List.head_cons]
  rw [hr] at hright
  cases ps with
  | nil =>
    obtain ⟨rfl, rfl⟩ := List.cons.inj hright
    cases hpiece
  | cons r' ps =>
    obtain ⟨rfl, rfl⟩ := List.cons.inj hright
    rcases List.mem_append.1 hpiece with hin | hin
    · exact .inl (hcs ▸ List.mem_cons_of_mem _ (List.mem_append_left _ hin))
    · obtain rfl := List.mem_singleton.1 hin
      refine .inr (.inr (congrArg String.ofList ?_))
      simp only [hleft]
      exact (List.getLast_append_singleton ((lead ++ r) :: ps)).symm

/-! ## Lengths of names -/

theorem mem_segments_iff {name : String} :
    name ∈ p.segments ↔ ∃ piece ∈ pieces p.text.toList, piece ≠ [] ∧ .ofList piece = name := by
  simp [segments, and_assoc]

/-- Of the names between the slashes at most single dots are left out. -/
theorem mem_components_iff {name : String} (h : name ≠ ".") :
    name ∈ p.components ↔ name ∈ p.segments := by
  unfold components
  split
  case h_1 hnil => rw [hnil]
  case h_2 s ss hcons =>
    rw [hcons]
    split_ifs with hdot
    · simp [h, hdot.1]
    · simp [h]

theorem hasOverlongName_iff : p.hasOverlongName = true ↔
    ∃ piece ∈ pieces p.text.toList, maxNameBytes < (String.ofList piece).utf8ByteSize := by
  simp only [hasOverlongName, List.any_eq_true, decide_eq_true_eq]
  constructor
  · rintro ⟨name, hname, hlong⟩
    have hdot : name ≠ "." := by
      rintro rfl
      exact absurd hlong (by decide)
    obtain ⟨piece, hpiece, -, rfl⟩ := mem_segments_iff.1 ((mem_components_iff hdot).1 hname)
    exact ⟨piece, hpiece, hlong⟩
  · rintro ⟨piece, hpiece, hlong⟩
    have hne : piece ≠ [] := by
      rintro rfl
      exact absurd hlong (by decide)
    have hdot : String.ofList piece ≠ "." := by
      intro h
      rw [h] at hlong
      exact absurd hlong (by decide)
    exact ⟨_, (mem_components_iff hdot).2 (mem_segments_iff.2 ⟨piece, hpiece, hne, rfl⟩), hlong⟩

/-- Something without a slash before and after a path of which no name is overlong makes a name
overlong just at one of the ends. -/
theorem hasOverlongName_append_iff (hlead : '/' ∉ lead) (htrail : '/' ∉ trail)
    (hp : p.text.toList = lead ++ cs ++ trail)
    (hcs : (Path.mk (.ofList cs)).hasOverlongName = false) : p.hasOverlongName = true ↔
      maxNameBytes < p.first.utf8ByteSize ∨ maxNameBytes < p.last.utf8ByteSize := by
  rw [hasOverlongName_iff]
  constructor
  · rintro ⟨piece, hpiece, hlong⟩
    rcases mem_pieces_append hlead htrail hp hpiece with hin | hfirst | hlast
    · have hover : (Path.mk (.ofList cs)).hasOverlongName = true :=
        hasOverlongName_iff.2 ⟨piece, by rwa [String.toList_ofList], hlong⟩
      cases hcs.symm.trans hover
    · exact .inl (hfirst ▸ hlong)
    · exact .inr (hlast ▸ hlong)
  · rintro (hlong | hlong)
    · exact ⟨_, List.head_mem _, hlong⟩
    · exact ⟨_, List.getLast_mem _, hlong⟩

end Triage.Path
