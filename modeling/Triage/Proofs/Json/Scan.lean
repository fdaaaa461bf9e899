import Mathlib.Data.List.Chain
import Triage.Json.Token
import Triage.Proofs.Json.Number

/-!
# Tokens are scanned as they are written

A word or a number ends only before a character that cannot go on with it, so two of them must not
stand side by side.  In any other row of tokens each one is read from its characters.
-/

namespace Triage.Json

/-- Whether the token has a written form that is read as it. -/
def Token.Proper : Token → Prop
  | .number n => n.Proper
  | .string s => s.isSome
  | _ => True

/-- Whether the token has no end of its own. -/
def Token.isBare : Token → Bool
  | .null | .bool _ | .number _ => true
  | _ => false

/-- Whether the second token may follow the first. -/
def Token.Parts (t t' : Token) : Prop := t.isBare = true → t'.isBare = false

namespace Scanner

/-- Whether the scanner has read the tokens, the last one first: it stands between tokens, or in a
bare one that ends before any character but those of words and numbers. -/
structure Rests (s : Scanner) (ts : List Token) : Prop where
  close : s.close? = some ts
  step : ∀ c, c.isLower = false → isNumberChar c = false → s.step? c = start? ts c
  between : (∀ t ∈ ts.head?, t.isBare = false) → s = ⟨.between, ts⟩

variable {s : Scanner} {ts : List Token} {t : Token} {c : Char}

theorem rests_between (ts : List Token) : Rests ⟨.between, ts⟩ ts :=
  ⟨rfl, fun _ _ _ => rfl, fun _ => rfl⟩

/-! ## Words and numbers -/

theorem foldlM_number (done cs : List Char) (hcs : ∀ c ∈ cs, isNumberChar c = true)
    (ts : List Token) :
    cs.foldlM step? ⟨.number done, ts⟩ = some ⟨.number (cs.reverse ++ done), ts⟩ := by
  induction cs generalizing done with
  | nil => rfl
  | cons c cs ih =>
    have hc : step? ⟨.number done, ts⟩ c = some ⟨.number (c :: done), ts⟩ :=
      if_pos (hcs c List.mem_cons_self)
    rw [List.foldlM_cons, hc]
    simpa using ih (c :: done) fun c hc => hcs c (List.mem_cons_of_mem _ hc)

theorem rests_word (word : List Char) (ht : t.isBare = true) (h : wordToken? word = some t)
    (ts : List Token) : Rests ⟨.word word.reverse, ts⟩ (t :: ts) := by
  have hclose : close? ⟨.word word.reverse, ts⟩ = some (t :: ts) := by simp [close?, h]
  refine ⟨hclose, fun c hlower _ => by simp [step?, hlower, hclose], fun hbare => ?_⟩
  cases ht.symm.trans (hbare t rfl)

theorem rests_number {n : JsonNumber} {chars : List Char}
    (h : JsonNumber.ofChars? chars = some n) (ts : List Token) :
    Rests ⟨.number chars.reverse, ts⟩ (.number n :: ts) := by
  have hclose : close? ⟨.number chars.reverse, ts⟩ = some (.number n :: ts) := by simp [close?, h]
  refine ⟨hclose, fun c _ hnumber => by simp [step?, hnumber, hclose], fun hbare => ?_⟩
  cases hbare _ rfl

theorem isNumberChar_of_mem_chars {n : JsonNumber} (hn : n.Proper) (hc : c ∈ n.chars) :
    isNumberChar c = true := by
  have hdigit {c : Char} (hc : c.isDigit = true) : isNumberChar c = true := by
    simp [isNumberChar, hc]
  obtain ⟨negative, whole, fraction, exponent⟩ := n
  simp only [JsonNumber.chars, Numeral.chars, List.mem_append] at hc
  rcases hc with hc | (hc | hc) | hc
  · cases negative <;> simp_all [isNumberChar]
  · exact hdigit (Decimal.isDigit_of_mem_digitsOf hc)
  · split at hc
    · cases hc
    · rcases List.mem_cons.1 hc with rfl | hc
      · rfl
      · exact hdigit (hn c hc)
  · rcases exponent with _ | e
    · cases hc
    · simp only [Numeral.exponentChars, List.mem_cons] at hc
      rcases hc with rfl | rfl | hc
      · rfl
      · split <;> rfl
      · exact hdigit (Decimal.isDigit_of_mem_digitsOf hc)

/-! ## Strings -/

theorem hexDigits_of_lt : ∀ n < 0x20,
    Text.hexDigits 4 n = ['0', '0', (n / 16).digitChar, (n % 16).digitChar] ∧
      Text.hexValue? (n / 16).digitChar = some (n / 16) ∧
      Text.hexValue? (n % 16).digitChar = some (n % 16) := by
  decide

theorem foldlM_hexDigits {n : Nat} (hn : n < 0x20) {u : Text.Units} (hu : u.leading = none)
    (ts : List Token) :
    (Text.hexDigits 4 n).foldlM step? ⟨.unit u 0 0, ts⟩ =
      some ⟨.string (u.char (Char.ofNat n)), ts⟩ := by
  obtain ⟨hdigits, hhigh, hlow⟩ := hexDigits_of_lt n hn
  have hzero : Text.hexValue? '0' = some 0 := rfl
  have hunit : u.unit (n / 16 * 16 + n % 16) = u.char (Char.ofNat n) := by
    have hvalue : n / 16 * 16 + n % 16 = n := Nat.div_add_mod' n 16
    have hlead : Text.Units.isLeading n = false := by simp [Text.Units.isLeading]; omega
    have htrail : Text.Units.isTrailing n = false := by simp [Text.Units.isTrailing]; omega
    simp [Text.Units.unit, Text.Units.char, hu, hvalue, hlead, htrail]
  simp [hdigits, step?, hzero, hhigh, hlow, hunit]

/-- What stands for a character is read as it. -/
theorem foldlM_escapeChar (c : Char) {u : Text.Units} (hu : u.leading = none) (ts : List Token) :
    (escapeChar c).foldlM step? ⟨.string u, ts⟩ = some ⟨.string (u.char c), ts⟩ := by
  unfold escapeChar
  split_ifs with hquote hslash _ _ _ _ _ hcontrol
  any_goals
    subst c
    rfl
  · have hescape : ['\\', 'u'].foldlM step? ⟨.string u, ts⟩ = some ⟨.unit u 0 0, ts⟩ := rfl
    have hhex := foldlM_hexDigits hcontrol hu ts
    rw [Char.ofNat_toNat] at hhex
    rw [← hhex]
    exact List.foldlM_append (l := ['\\', 'u'])
  · simp [step?, hquote, hslash, hcontrol]

theorem foldlM_flatMap_escapeChar (cs : List Char) {u : Text.Units} (hu : u.leading = none)
    (ts : List Token) :
    (cs.flatMap escapeChar).foldlM step? ⟨.string u, ts⟩ =
      some ⟨.string (cs.foldl Text.Units.char u), ts⟩ := by
  induction cs generalizing u with
  | nil => rfl
  | cons c cs ih =>
    rw [List.flatMap_cons, List.foldlM_append, foldlM_escapeChar c hu]
    exact ih rfl

theorem foldl_char_of_whole (cs : List Char) {u : Text.Units} (hu : u.leading = none)
    (hwhole : u.broken = false) :
    cs.foldl Text.Units.char u = ⟨cs.reverse ++ u.done, none, false⟩ := by
  induction cs generalizing u with
  | nil =>
    obtain ⟨done, leading, broken⟩ := u
    cases hu
    cases hwhole
    rfl
  | cons c cs ih =>
    rw [List.foldl_cons, ih rfl (by simp [Text.Units.char, hu, hwhole])]
    simp [Text.Units.char]

/-- A string is read between its quotes. -/
theorem foldlM_quoted (hs : Rests s ts) (text : String) :
    (quoted text).foldlM step? s = some ⟨.between, .string (some text) :: ts⟩ := by
  have hopen : step? s '"' = some ⟨.string {}, ts⟩ := hs.step '"' rfl rfl
  have hbody := foldlM_flatMap_escapeChar text.toList (u := {}) rfl ts
  rw [foldl_char_of_whole text.toList rfl rfl, List.append_nil] at hbody
  have hclose : step? ⟨.string ⟨text.toList.reverse, none, false⟩, ts⟩ '"' =
      some ⟨.between, .string (some text) :: ts⟩ := by
    simp [step?, Text.Units.finish?]
  rw [quoted, List.cons_append, List.foldlM_cons, hopen, Option.bind_eq_bind, Option.bind_some,
    List.foldlM_append, hbody]
  simpa using hclose

/-! ## Rows of tokens -/

theorem markToken?_eq_some (h : markToken? c = some t) :
    c.isLower = false ∧ isNumberChar c = false ∧ isSpace c = false := by
  unfold markToken? at h
  split at h
  all_goals
    first
    | exact ⟨rfl, rfl, rfl⟩
    | cases h

theorem Rests.mark (hs : Rests s ts) (h : markToken? c = some t) :
    step? s c = some ⟨.between, t :: ts⟩ := by
  obtain ⟨hlower, hnumber, hspace⟩ := markToken?_eq_some h
  rw [hs.step c hlower hnumber]
  simp [start?, hspace, h]

theorem start?_of_numberStart (ts : List Token) (h : c.isDigit = true ∨ c = '-') :
    start? ts c = some ⟨.number [c], ts⟩ := by
  have hnot (d : Char) (hd : d.isDigit = false) (hne : d ≠ '-') : c ≠ d := by
    rintro rfl
    simp_all
  have hspace : isSpace c = false := by
    simp [isSpace, hnot ' ' rfl nofun, hnot '\n' rfl nofun, hnot '\t' rfl nofun,
      hnot '\r' rfl nofun]
  have hmark : markToken? c = none := by
    unfold markToken?
    split
    case h_7 => rfl
    all_goals simp at h
  simp [start?, hspace, hmark, hnot '"' rfl nofun, h]

/-- The first character of a number. -/
theorem exists_chars_eq_cons (n : JsonNumber) :
    ∃ c cs, n.chars = c :: cs ∧ (c.isDigit = true ∨ c = '-') := by
  obtain ⟨d, ds, hds⟩ := List.exists_cons_of_ne_nil (Decimal.digitsOf_ne_nil n.numeral.whole)
  have hd : d.isDigit = true := Decimal.isDigit_of_mem_digitsOf (hds ▸ List.mem_cons_self)
  rw [JsonNumber.chars, Numeral.chars, hds]
  cases n.negative
  · exact ⟨d, _, rfl, .inl hd⟩
  · exact ⟨'-', _, rfl, .inr rfl⟩

theorem foldlM_chars {n : JsonNumber} (hn : n.Proper) (ts : List Token) :
    n.chars.foldlM step? ⟨.between, ts⟩ = some ⟨.number n.chars.reverse, ts⟩ := by
  obtain ⟨c, cs, hcs, hc⟩ := exists_chars_eq_cons n
  have hrest : ∀ c ∈ cs, isNumberChar c = true := fun x hx =>
    isNumberChar_of_mem_chars hn (hcs ▸ List.mem_cons_of_mem _ hx)
  have hstart : step? ⟨.between, ts⟩ c = some ⟨.number [c], ts⟩ := start?_of_numberStart ts hc
  rw [hcs, List.foldlM_cons, hstart, List.reverse_cons]
  exact foldlM_number [c] cs hrest ts

/-- A token is read from its characters, unless it and the one before are both bare. -/
theorem Rests.token (hs : Rests s ts) (ht : t.Proper)
    (hbare : t.isBare = true → ∀ t' ∈ ts.head?, t'.isBare = false) :
    ∃ s', t.chars.foldlM step? s = some s' ∧ Rests s' (t :: ts) := by
  have hmark (c : Char) (hc : markToken? c = some t) :
      ∃ s', [c].foldlM step? s = some s' ∧ Rests s' (t :: ts) :=
    ⟨_, by rw [List.foldlM_cons, hs.mark hc]; rfl, rests_between _⟩
  cases t with
  | openArray | closeArray | openObject | closeObject | comma | colon => exact hmark _ rfl
  | null =>
    rw [hs.between (hbare rfl)]
    exact ⟨_, rfl, rests_word ['n', 'u', 'l', 'l'] rfl rfl ts⟩
  | bool b =>
    rw [hs.between (hbare rfl)]
    cases b
    · exact ⟨_, rfl, rests_word ['f', 'a', 'l', 's', 'e'] rfl rfl ts⟩
    · exact ⟨_, rfl, rests_word ['t', 'r', 'u', 'e'] rfl rfl ts⟩
  | number n =>
    rw [hs.between (hbare rfl)]
    exact ⟨_, foldlM_chars ht ts, rests_number (JsonNumber.ofChars?_chars ht) ts⟩
  | string o =>
    obtain ⟨text, rfl⟩ := Option.isSome_iff_exists.1 ht
    exact ⟨_, foldlM_quoted hs text, rests_between _⟩

theorem foldlM_flatMap_chars (hs : Rests s ts) {us : List Token} (hus : ∀ u ∈ us, u.Proper)
    (hparts : (ts.head?.toList ++ us).IsChain Token.Parts) :
    ∃ s', (us.flatMap Token.chars).foldlM step? s = some s' ∧ Rests s' (us.reverse ++ ts) := by
  induction us generalizing s ts with
  | nil => exact ⟨s, rfl, hs⟩
  | cons u us ih =>
    have hbare : u.isBare = true → ∀ t' ∈ ts.head?, t'.isBare = false := by
      intro hu t' ht'
      rw [Option.mem_def.1 ht'] at hparts
      have htu : t'.Parts u := (List.isChain_cons_cons.1 hparts).1
      exact Bool.eq_false_iff.2 fun ht => by cases (htu ht).symm.trans hu
    obtain ⟨s₁, hs₁, hrests⟩ := hs.token (hus u List.mem_cons_self) hbare
    obtain ⟨s', hs', hrests'⟩ := ih hrests (fun v hv => hus v (List.mem_cons_of_mem _ hv))
      hparts.right_of_append
    refine ⟨s', ?_, by simpa using hrests'⟩
    rw [List.flatMap_cons, List.foldlM_append, hs₁]
    exact hs'

end Scanner

/-- A row of tokens is scanned as it is written, if no two bare ones stand side by side. -/
theorem scan?_flatMap_chars {ts : List Token} (hts : ∀ t ∈ ts, t.Proper)
    (hparts : ts.IsChain Token.Parts) :
    scan? ((ts.flatMap Token.chars).map some) = some ts := by
  obtain ⟨s, hs, hrests⟩ := Scanner.foldlM_flatMap_chars (Scanner.rests_between []) hts hparts
  rw [List.append_nil] at hrests
  have hread : ((ts.flatMap Token.chars).map some).foldlM Scanner.read? {} = some s := by
    rw [List.foldlM_map]
    exact hs
  simp [scan?, hread, hrests.close]

end Triage.Json
