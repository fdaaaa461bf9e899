import Triage.Proofs.Codec.Facet
import Triage.Proofs.Search.Tally

/-!
# The order of the buckets of a facet

A facet that is computed has its buckets in order, each value in one of them only.  A facet that is
read has the buckets that the text tells, which need not be in order: what a program holds is in
order as long as the texts that it reads tell facets that are, and so if it reads none but those
that it has written itself.
-/

namespace Triage.FacetCounts

variable {c c' : FacetCounts}

/-- Whether the buckets stand in their order and each value has one bucket only. -/
structure IsOrdered (c : FacetCounts) : Prop where
  sorted : c.buckets.Pairwise FacetValue.Precedes
  nodup_keys : c.keys.Nodup

/-- Whether the count of a value is that of the only bucket that there is for it, or 0 if there is
none. -/
def CountsOnce (c : FacetCounts) (v : Option String) : Prop :=
  (∃ b ∈ c.buckets, b.value = v ∧ c.countOf v = b.count ∧ ∀ b' ∈ c.buckets, b'.value = v → b' = b) ∨
    v ∉ c.keys ∧ c.countOf v = 0

theorem IsOrdered.countsOnce (h : c.IsOrdered) (v : Option String) : c.CountsOnce v := by
  have hcount : c.countOf v =
      ((c.buckets.find? fun b => b.value = v).map FacetValue.count).getD 0 := rfl
  rcases hfind : c.buckets.find? fun b => b.value = v with _ | b
  · refine .inr ⟨fun hv => ?_, by rw [hcount, hfind, Option.map_none, Option.getD_none]⟩
    obtain ⟨b, hb, hvalue⟩ := List.mem_map.1 hv
    exact List.find?_eq_none.1 hfind b hb (decide_eq_true hvalue)
  · have hvalue : b.value = v := by simpa using List.find?_some hfind
    have hb : b ∈ c.buckets := List.mem_of_find?_eq_some hfind
    refine .inl ⟨b, hb, hvalue, by rw [hcount, hfind, Option.map_some, Option.getD_some], ?_⟩
    exact fun b' hb' hvalue' =>
      List.inj_on_of_nodup_map h.nodup_keys hb' hb (hvalue'.trans hvalue.symm)

/-! ## Facets that are computed -/

theorem isOrdered_ofBuckets {bs : List FacetValue} (h : (bs.map (·.value)).Nodup) :
    (ofBuckets bs).IsOrdered where
  sorted := sorted_ofBuckets (List.pairwise_map.1 h)
  nodup_keys := ((List.mergeSort_perm bs _).map FacetValue.value).nodup_iff.2 h

theorem isOrdered_default : (default : FacetCounts).IsOrdered := ⟨.nil, .nil⟩

theorem isOrdered_aggregate (field : FacetField) (docs : List IssueDoc) :
    (aggregate field docs).IsOrdered where
  sorted := (tallies_aggregate field docs).sorted
  nodup_keys := (tallies_aggregate field docs).nodup_keys

theorem nodup_values_foldl (counts : List FacetValue) :
    ((counts.foldl (fun bs b => bs.filter (·.value ≠ b.value) ++ [b]) []).map (·.value)).Nodup := by
  induction counts using List.reverseRecOn with
  | nil => exact .nil
  | append_singleton counts b ih =>
    rw [List.foldl_concat, List.map_append, List.nodup_append]
    refine ⟨?_, List.nodup_singleton _, ?_⟩
    · exact ih.sublist (List.filter_sublist.map _)
    · intro v hv w hw
      obtain ⟨b', hb', rfl⟩ := List.mem_map.1 hv
      rw [List.mem_singleton.1 hw]
      simpa using (List.mem_filter.1 hb').2

theorem isOrdered_ofCounts (counts : List FacetValue) : (ofCounts counts).IsOrdered :=
  isOrdered_ofBuckets (nodup_values_foldl counts)

/-! ## Facets that are read -/

/-- Whether a text tells the facet, by itself or in a result of a search. -/
def ToldBy (c : FacetCounts) (t : String) : Prop :=
  ofJsonText? t = some c ∨
    ∃ (s : SearchResult) (name : String), ofJsonText? t = some s ∧ s.facet? name = some c

theorem fits_of_toldBy {t : String} (h : c.ToldBy t) : c.Fits := by
  rcases h with h | ⟨s, name, hs, hc⟩
  · exact legible_iff.1 (legible_of_ofJsonText? h)
  · exact SearchResult.fits_of_legible (legible_of_ofJsonText? hs) hc

/-- What is written for a facet is no result of a search. -/
theorem toldBy_jsonText (h : c'.ToldBy (jsonText c)) : c' = c := by
  rcases h with h | ⟨s, name, hs, -⟩
  · exact c.readsOnlyAs.ofJsonText? h
  · rw [ofJsonText?, jsonText, Json.parse?_print c.proper, Option.bind_some] at hs
    obtain ⟨r, hr, htotal, -⟩ := SearchResult.ofJson?_eq_some.1 hs
    obtain rfl : Record.mk [] = r := Option.some.inj hr
    cases htotal

/-- What is written for a result of a search tells its facets. -/
theorem toldBy_jsonText_result {s : SearchResult} (h : c.ToldBy (jsonText s)) :
    ∃ name, s.facet? name = some c := by
  rcases h with h | ⟨s', name, hs, hc⟩
  · rw [ofJsonText?, jsonText, Json.parse?_print s.proper, Option.bind_some] at h
    obtain ⟨r, hr, hbuckets⟩ := ofJson?_eq_some.1 h
    obtain rfl : Record.mk [] = r := Option.some.inj hr
    cases hbuckets
  · rw [SearchResult.facet?, SearchResult.facets_of_reread hs] at hc
    exact ⟨name, hc⟩

/-- The facets that a program can hold that reads the given texts from elsewhere, and besides them
what it has written itself. -/
inductive Held (texts : String → Prop) : FacetCounts → Prop
  | default : Held texts default
  | aggregate (field : FacetField) (docs : List IssueDoc) : Held texts (.aggregate field docs)
  | ofCounts (counts : List FacetValue) : Held texts (.ofCounts counts)
  | told {t : String} {c : FacetCounts} (ht : texts t) (hc : c.ToldBy t) : Held texts c
  | reread {c c' : FacetCounts} (hc : Held texts c) (hc' : c'.ToldBy (jsonText c)) : Held texts c'
  | rereadResult {s : SearchResult} {c : FacetCounts}
      (hs : ∀ name c, s.facet? name = some c → Held texts c) (hc : c.ToldBy (jsonText s)) :
      Held texts c

theorem isOrdered_of_held {texts : String → Prop} (h : c.Held texts)
    (htexts : ∀ t, texts t → ∀ c : FacetCounts, c.ToldBy t → c.IsOrdered) : c.IsOrdered := by
  induction h with
  | default => exact isOrdered_default
  | aggregate field docs => exact isOrdered_aggregate field docs
  | ofCounts counts => exact isOrdered_ofCounts counts
  | told ht hc => exact htexts _ ht _ hc
  | reread _ hc' ih => exact toldBy_jsonText hc' ▸ ih
  | rereadResult _ hc ih =>
    obtain ⟨name, hname⟩ := toldBy_jsonText_result hc
    exact ih name _ hname

theorem exists_ofJsonText?_iff : (∃ t, ofJsonText? t = some c) ↔ c.Fits :=
  ⟨fun ⟨_, ht⟩ => fits_of_toldBy (.inl ht), fun h => ⟨_, (readsAs h).ofJsonText?⟩⟩

theorem exists_ofJsonText?_facets_iff {m : KeyMap .facet FacetCounts} :
    (∃ (t : String) (s : SearchResult), ofJsonText? t = some s ∧ s.facets = m) ↔
      ∀ e ∈ m.entries, e.2.Fits := by
  constructor
  · rintro ⟨t, s, ht, rfl⟩ e he
    exact SearchResult.fits_of_legible (legible_of_ofJsonText? ht) (KeyMap.mem_entries_iff.1 he)
  · intro h
    have hread : ReadsAs (SearchResult.mk 0 [] m) ⟨0, [], m⟩ :=
      SearchResult.readsAs (Nat.two_pow_pos 64) (fun _ hd => absurd hd List.not_mem_nil) h
    exact ⟨_, _, hread.ofJsonText?, rfl⟩

/-- A facet that a program holds has its buckets in order if those have it that it is told by texts
from elsewhere, and no value has two buckets then.  Reading does not see to it: a text may tell any
buckets whose counts fit, in any order and with values that repeat, by itself or in a result. -/
theorem ordered_as_told (texts : String → Prop) :
    ((∀ c, Held texts c → c.IsOrdered) ↔
      ∀ t, texts t → ∀ c : FacetCounts, c.ToldBy t → c.IsOrdered) ∧
    (∀ c : FacetCounts, c.IsOrdered → ∀ v, c.CountsOnce v) ∧
    (∀ c : FacetCounts, (∃ t, ofJsonText? t = some c) ↔ c.Fits) ∧
    ∀ m : KeyMap .facet FacetCounts,
      (∃ (t : String) (s : SearchResult), ofJsonText? t = some s ∧ s.facets = m) ↔
        ∀ e ∈ m.entries, e.2.Fits :=
  ⟨⟨fun h _ ht c hc => h c (.told ht hc), fun h _ hc => isOrdered_of_held hc h⟩,
    fun _ h => h.countsOnce, fun _ => exists_ofJsonText?_iff,
    fun _ => exists_ofJsonText?_facets_iff⟩

/-- Two buckets for one value, and the fullest bucket last. -/
def scrambled : FacetCounts := ⟨[⟨some "a", 1⟩, ⟨some "b", 2⟩, ⟨some "a", 3⟩]⟩

/-- The text of `scrambled`. -/
def scrambledText : String :=
  "\x7b\"buckets\":[\x7b\"value\":\"a\",\"count\":1\x7d," ++
    "\x7b\"value\":\"b\",\"count\":2\x7d,\x7b\"value\":\"a\",\"count\":3\x7d]\x7d"

/-- A program that reads this text holds a facet that is not in order, and finds the first of two
counts. -/
theorem ordered_as_told_sample : ofJsonText? scrambledText = some scrambled ∧
    (¬∀ c, Held (· = scrambledText) c → c.IsOrdered) ∧ ¬scrambled.CountsOnce (some "a") := by
  have htext : ofJsonText? scrambledText = some scrambled := by decide +kernel
  refine ⟨htext, fun h => ?_, ?_⟩
  · have hordered := (ordered_as_told (· = scrambledText)).1.1 h _ rfl scrambled (.inl htext)
    have hfirst : FacetValue.Precedes ⟨some "a", 1⟩ ⟨some "b", 2⟩ :=
      (List.pairwise_cons.1 hordered.sorted).1 _ List.mem_cons_self
    rw [← FacetValue.before_iff] at hfirst
    revert hfirst
    decide
  · rintro (⟨b, -, -, -, honly⟩ | ⟨hkeys, -⟩)
    · have hfirst := honly ⟨some "a", 1⟩ (by decide) rfl
      have hlast := honly ⟨some "a", 3⟩ (by decide) rfl
      rw [← hlast] at hfirst
      cases hfirst
    · exact hkeys (by decide)

end Triage.FacetCounts
