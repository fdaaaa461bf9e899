import Triage.Text.Lowercase

/-!
# Texts in lower case

A character is small if it is its own small form wherever it stands.  All that lower case puts into
a text is small, so to take it twice is to take it once.  Every character becomes at least one.
-/

namespace Triage.Text

/-- Whether `c` is its own small form, whatever stands around it. -/
def isSmall (c : Char) : Bool := c ≠ 'Σ' && c ≠ 'İ' && (lowercase? c).getD c = c

namespace CaseRun

/-- The code of the first small letter of the run. -/
def low (r : CaseRun) : Nat := (r.first + r.offset).toNat

/-- The code of the last small letter of the run. -/
def high (r : CaseRun) : Nat := (r.last + r.offset).toNat

/-- Whether the codes of the small letters are those of characters, and not of the capital with a
dot. -/
def isSound (r : CaseRun) : Bool :=
  decide (0 ≤ r.first + r.offset) &&
    (r.high.blt 0xD800 || Nat.blt 0xDFFF r.low && r.high.blt 0x110000) &&
    (r.high.blt 'İ'.toNat || 'İ'.toNat.blt r.low)

/-- Whether no small letter of the run is a capital of the other: they lie apart, or alternate. -/
def spares (r r' : CaseRun) : Bool :=
  r.high.blt r'.first || r'.last.blt r.low ||
    (r'.step == 2 && (r.step == 2 || r.first == r.last) && (r.low + r'.first) % 2 == 1)

end CaseRun

variable {c d : Char} {cs rest done : List Char} {after : Bool} {s : String}

/-! ## The tables -/

theorem runs_spare :
    (lowercaseRuns.all fun r => r.isSound && lowercaseRuns.all r.spares) = true := by
  decide +kernel

namespace CaseRun

variable {r r' : CaseRun} {n : Nat}

theorem toNat_of_image? (hr : r.isSound = true) (h : r.image? n = some d) :
    r.first ≤ n ∧ n ≤ r.last ∧ (n - r.first) % r.step = 0 ∧ (d.toNat : Int) = n + r.offset := by
  unfold image? at h
  split at h
  case isFalse => cases h
  case isTrue hn =>
    cases h
    refine ⟨hn.1, hn.2.1, hn.2.2, ?_⟩
    simp only [isSound, low, high, Bool.and_eq_true, Bool.or_eq_true, decide_eq_true_eq,
      Nat.blt_eq] at hr
    obtain ⟨⟨hnonneg, hvalid⟩, -⟩ := hr
    have hchar : ((n : Int) + r.offset).toNat.isValidChar := by
      rcases hvalid with hlow | ⟨hlow, hhigh⟩
      · exact .inl (by omega)
      · exact .inr ⟨by omega, by omega⟩
    have hcode :
        (Char.ofNat ((n : Int) + r.offset).toNat).toNat = ((n : Int) + r.offset).toNat := by
      rw [Char.ofNat, dif_pos hchar]
      rfl
    omega

/-- The capital with a dot is no small letter of the run. -/
theorem ne_of_image? (hr : r.isSound = true) (h : r.image? n = some d) : d ≠ 'İ' := by
  obtain ⟨hfirst, hlast, -, hd⟩ := toNat_of_image? hr h
  simp only [isSound, low, high, Bool.and_eq_true, Bool.or_eq_true, Nat.blt_eq] at hr
  rintro rfl
  omega

theorem image?_eq_none_of_spares (hr : r.isSound = true) (hspares : r.spares r' = true)
    (h : r.image? n = some d) : r'.image? d.toNat = none := by
  obtain ⟨hfirst, hlast, hstep, hd⟩ := toNat_of_image? hr h
  simp only [isSound, Bool.and_eq_true, decide_eq_true_eq] at hr
  refine if_neg fun ⟨hfirst', hlast', hstep'⟩ => ?_
  simp only [spares, low, high, Bool.or_eq_true, Bool.and_eq_true, Nat.blt_eq,
    beq_iff_eq] at hspares
  rcases hspares with (hapart | hapart) | ⟨⟨htwo, hsteps⟩, hodd⟩
  · omega
  · omega
  · rw [htwo] at hstep'
    rcases hsteps with hsteps | hsteps
    · rw [hsteps] at hstep
      omega
    · omega

end CaseRun

theorem exists_run_of_findCaseRun {n : Nat} {runs : List CaseRun}
    (h : findCaseRun n runs = some d) : ∃ r ∈ runs, r.image? n = some d := by
  induction runs with
  | nil => cases h
  | cons r runs ih =>
    rw [findCaseRun] at h
    split at h
    case isTrue => cases h
    case isFalse =>
      rcases Option.or_eq_some_iff.1 h with h | ⟨-, h⟩
      · exact ⟨r, List.mem_cons_self, h⟩
      · obtain ⟨r', hr', hd⟩ := ih h
        exact ⟨r', List.mem_cons_of_mem _ hr', hd⟩

/-- The small letters of the table are small. -/
theorem small_of_lowercase? (h : lowercase? c = some d) : isSmall d = true := by
  obtain ⟨r, hr, himage⟩ := exists_run_of_findCaseRun h
  obtain ⟨hsound, hspares⟩ := Bool.and_eq_true_iff.1 (List.all_eq_true.1 runs_spare r hr)
  have hnone : lowercase? d = none := by
    rw [Option.eq_none_iff_forall_ne_some]
    intro e he
    obtain ⟨r', hr', himage'⟩ := exists_run_of_findCaseRun he
    have hspare :=
      CaseRun.image?_eq_none_of_spares hsound (List.all_eq_true.1 hspares r' hr') himage
    rw [himage'] at hspare
    cases hspare
  have hsigma : d ≠ 'Σ' := by
    rintro rfl
    exact absurd hnone (by decide +kernel)
  have hdotted : d ≠ 'İ' := CaseRun.ne_of_image? hsound himage
  simp [isSmall, hsigma, hdotted, hnone]

/-! ## One character -/

theorem lowercaseAt_of_small (h : isSmall c = true) : lowercaseAt after c rest = [c] := by
  simp only [isSmall, Bool.and_eq_true, decide_eq_true_eq] at h
  obtain ⟨⟨hsigma, hdotted⟩, hself⟩ := h
  rw [lowercaseAt, if_neg hsigma, if_neg hdotted, hself]

/-- What a character becomes is small. -/
theorem small_of_mem_lowercaseAt (h : d ∈ lowercaseAt after c rest) : isSmall d = true := by
  unfold lowercaseAt at h
  split at h
  case isTrue =>
    obtain rfl := List.mem_singleton.1 h
    cases after && !startsCased rest <;> decide +kernel
  case isFalse hsigma =>
    split at h
    case isTrue =>
      rcases List.mem_cons.1 h with rfl | h
      · decide +kernel
      · obtain rfl := List.mem_singleton.1 h
        decide +kernel
    case isFalse hdotted =>
      obtain rfl := List.mem_singleton.1 h
      rcases hlower : lowercase? c with _ | e
      · simp [isSmall, hsigma, hdotted, hlower]
      · exact small_of_lowercase? hlower

theorem lowercaseAt_ne_nil : lowercaseAt after c rest ≠ [] := by
  unfold lowercaseAt
  split
  · exact List.cons_ne_nil _ _
  · split <;> exact List.cons_ne_nil _ _

/-! ## Texts -/

theorem lowercaseLoop_of_small (h : ∀ c ∈ cs, isSmall c = true) :
    lowercaseLoop after done cs = done.reverse ++ cs := by
  induction cs generalizing after done with
  | nil => simp [lowercaseLoop]
  | cons c cs ih =>
    rw [lowercaseLoop, lowercaseAt_of_small (h c List.mem_cons_self),
      ih fun d hd => h d (List.mem_cons_of_mem _ hd)]
    simp

/-- What comes out was there before, or is what some character becomes. -/
theorem of_mem_lowercaseLoop (h : d ∈ lowercaseLoop after done cs) :
    d ∈ done ∨ ∃ c ∈ cs, ∃ after rest, d ∈ lowercaseAt after c rest := by
  induction cs generalizing after done with
  | nil => exact .inl (List.mem_reverse.1 h)
  | cons c cs ih =>
    rw [lowercaseLoop] at h
    rcases ih h with hdone | ⟨c', hc', hd⟩
    · rcases List.mem_append.1 hdone with hd | hd
      · exact .inr ⟨c, List.mem_cons_self, after, cs, List.mem_reverse.1 hd⟩
      · exact .inl hd
    · exact .inr ⟨c', List.mem_cons_of_mem _ hc', hd⟩

theorem length_le_lowercaseLoop :
    done.length + cs.length ≤ (lowercaseLoop after done cs).length := by
  induction cs generalizing after done with
  | nil => simp [lowercaseLoop]
  | cons c cs ih =>
    have hpos : 0 < (lowercaseAt after c cs).length := List.length_pos_iff.2 lowercaseAt_ne_nil
    refine Nat.le_trans ?_ ih
    simp only [List.length_cons, List.length_append, List.length_reverse]
    omega

theorem small_of_mem_lowercase (h : d ∈ (lowercase s).toList) : isSmall d = true := by
  rw [lowercase, String.toList_ofList] at h
  rcases of_mem_lowercaseLoop h with h | ⟨c, -, after, rest, h⟩
  · cases h
  · exact small_of_mem_lowercaseAt h

/-- To take the lower case twice is to take it once. -/
theorem lowercase_lowercase (s : String) : lowercase (lowercase s) = lowercase s := by
  have hsmall : lowercaseLoop false [] (lowercase s).toList = [].reverse ++ (lowercase s).toList :=
    lowercaseLoop_of_small fun c hc => small_of_mem_lowercase hc
  rw [lowercase, hsmall, List.reverse_nil, List.nil_append, String.ofList_toList]

theorem lowercase_ne_empty (h : s ≠ "") : lowercase s ≠ "" := by
  intro hempty
  have hloop : [].length + s.toList.length ≤ (lowercaseLoop false [] s.toList).length :=
    length_le_lowercaseLoop
  have hlength : s.toList.length ≤ (lowercase s).toList.length := by
    simpa [lowercase] using hloop
  rw [hempty] at hlength
  exact h (String.toList_injective (List.length_eq_zero_iff.1 (Nat.le_zero.1 hlength)))

end Triage.Text
