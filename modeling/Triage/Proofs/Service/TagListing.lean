import Triage.Proofs.Service.Searching

/-!
# Tag listings

The index counts and ranks tags for a listing by itself.  A listing is nevertheless a part of the
tags facet of all issues: its ranked tags are the buckets of the facet whose values contain the text
that is asked for, and the order of both is one.
-/

namespace Triage

/-! ## Substrings -/

theorem Index.occursIn_iff {needle hay : List Char} :
    occursIn needle hay = true ↔ needle <:+: hay := by
  induction hay with
  | nil => simp [occursIn]
  | cons c cs ih => rw [occursIn, Bool.or_eq_true, List.isPrefixOf_iff_prefix, ih,
      List.infix_cons_iff]

/-- Whether a text contains the given one, if one is given. -/
def IncludesText (substring : Option String) (t : String) : Prop :=
  ∀ s ∈ substring, s.toList <:+: t.toList

instance (substring : Option String) : DecidablePred (IncludesText substring) := fun t =>
  inferInstanceAs (Decidable (∀ s ∈ substring, s.toList <:+: t.toList))

theorem includesText_none (t : String) : IncludesText none t := fun _ h => nomatch h

/-- The values of a facet that contain the given text, in facet order. -/
def FacetCounts.texts (c : FacetCounts) (substring : Option String) : List String :=
  (c.keys.filterMap id).filter (IncludesText substring)

/-! ## Ranked tags -/

namespace Index

/-- A tag with its number of documents, as a bucket of the tags facet. -/
def tagBucket (a : String × Nat) : FacetValue := ⟨some a.1, a.2⟩

theorem tagBefore_iff {a b : String × Nat} :
    tagBefore a b = true ↔ (tagBucket a).Precedes (tagBucket b) := by
  simp [tagBefore, tagBucket, FacetValue.Precedes, FacetValue.ValuePrecedes]

/-- All tags of the documents, each as often as it is there. -/
def tags (x : Index) : List String := x.docs.values.flatMap fun d => d.tags.toList

/-- The tags that contain the text, each with its number of documents, in the order of a listing. -/
def rankedTags (x : Index) (substring : Option String) : List (String × Nat) :=
  let tags := x.tags.filter fun t => substring.all fun s => occursIn s.toList t.toList
  (tags.eraseDups.map fun t => (t, tags.count t)).mergeSort fun a b => !tagBefore b a

theorem listTags_eq (x : Index) (substring : Option String) (size : Nat) :
    x.listTags substring size = ((x.rankedTags substring).take size).map (·.1) := rfl

theorem matching_empty (x : Index) : x.matching {} = x.docs.values :=
  List.filter_eq_self.2 fun _ _ => rfl

theorem countP_mem_values_tags (x : Index) (t : String) :
    (x.matching {}).countP (some t ∈ FacetField.values .tags ·) = x.tags.count t := by
  rw [← count_flatMap_values, matching_empty, tags,
    ← List.count_map_of_injective (x.docs.values.flatMap _) some (Option.some_injective _) t,
    List.map_flatMap]
  rfl

/-- Every bucket of the tags facet is for a tag of some document. -/
theorem mem_buckets_tags_iff {x : Index} {b : FacetValue} :
    b ∈ (x.facet {} .tags).buckets ↔ ∃ t ∈ x.tags, tagBucket (t, x.tags.count t) = b := by
  rw [(x.tallies_facet {} .tags).mem_iff]
  obtain ⟨_ | t, count⟩ := b
  · have hnone : (x.matching {}).countP (none ∈ FacetField.values .tags ·) = 0 := by
      simp [FacetField.values]
    simp only [hnone, tagBucket, FacetValue.mk.injEq, reduceCtorEq, false_and, and_false,
      exists_false, iff_false]
    omega
  · rw [countP_mem_values_tags]
    simp only [tagBucket, FacetValue.mk.injEq, Option.some.injEq]
    constructor
    · rintro ⟨rfl, hpos⟩
      exact ⟨t, List.count_pos_iff.1 hpos, rfl, rfl⟩
    · rintro ⟨t, ht, rfl, rfl⟩
      exact ⟨rfl, List.count_pos_iff.2 ht⟩

theorem mem_rankedTags {x : Index} {substring : Option String} {a : String × Nat} :
    a ∈ x.rankedTags substring ↔
      IncludesText substring a.1 ∧ a.1 ∈ x.tags ∧ x.tags.count a.1 = a.2 := by
  have hincludes (t : String) :
      (substring.all fun s => occursIn s.toList t.toList) = true ↔ IncludesText substring t := by
    simp [IncludesText, occursIn_iff, Option.all_eq_true]
  have hcount {t : String} (ht : IncludesText substring t) :
      (x.tags.filter fun t => substring.all fun s => occursIn s.toList t.toList).count t =
        x.tags.count t :=
    List.count_filter (l := x.tags) ((hincludes t).2 ht)
  obtain ⟨t, count⟩ := a
  simp only [rankedTags, List.mem_mergeSort, List.mem_map, List.mem_eraseDups, List.mem_filter,
    hincludes, Prod.mk.injEq]
  constructor
  · rintro ⟨t, ⟨ht, hin⟩, rfl, rfl⟩
    exact ⟨hin, ht, (hcount hin).symm⟩
  · rintro ⟨hin, ht, rfl⟩
    exact ⟨t, ⟨ht, hin⟩, rfl, hcount hin⟩

theorem pairwise_rankedTags (x : Index) (substring : Option String) :
    (x.rankedTags substring).Pairwise fun a b => (tagBucket a).Precedes (tagBucket b) := by
  have hranking : IsRanking fun a b => tagBefore a b = true := by
    simpa only [tagBefore_iff] using FacetValue.isRanking_precedes.comap tagBucket
  refine (pairwise_mergeSort_of_isRanking hranking (List.pairwise_map.2 ?_)).imp tagBefore_iff.1
  refine (nodup_eraseDups _).imp fun hne => ?_
  simp only [tagBefore_iff]
  exact FacetValue.precedes_or_precedes fun heq => hne (Option.some.inj heq)

/-- The ranked tags are the buckets of the facet whose values contain the text. -/
theorem map_rankedTags (x : Index) (substring : Option String) :
    (x.rankedTags substring).map tagBucket =
      (x.facet {} .tags).buckets.filter (·.value.any (IncludesText substring ·)) := by
  refine FacetValue.isRanking_precedes.eq_of_mem_iff
    (List.pairwise_map.2 (pairwise_rankedTags x substring))
    ((x.tallies_facet {} .tags).sorted.filter _) fun b => ?_
  rw [List.mem_filter, mem_buckets_tags_iff, List.mem_map]
  constructor
  · rintro ⟨a, ha, rfl⟩
    obtain ⟨hin, ht, hcount⟩ := mem_rankedTags.1 ha
    exact ⟨⟨a.1, ht, by rw [hcount]⟩, decide_eq_true hin⟩
  · rintro ⟨⟨t, ht, rfl⟩, hin⟩
    exact ⟨_, mem_rankedTags.2 ⟨of_decide_eq_true hin, ht, rfl⟩, rfl⟩

theorem texts_facet_tags (x : Index) (substring : Option String) :
    (x.facet {} .tags).texts substring = (x.rankedTags substring).map (·.1) := by
  have hvalue (b : FacetValue) :
      b.value.filter (IncludesText substring ·) =
        if b.value.any (IncludesText substring ·) then b.value else none := by
    cases b.value <;> simp [Option.filter]
  calc (x.facet {} .tags).texts substring
      = (x.facet {} .tags).buckets.filterMap
          fun b => b.value.filter (IncludesText substring ·) := by
        rw [FacetCounts.texts, FacetCounts.keys, List.filterMap_map, List.filter_filterMap]
        rfl
    _ = ((x.facet {} .tags).buckets.filter
          (·.value.any (IncludesText substring ·))).filterMap (·.value) := by
        simp only [hvalue, List.filterMap_filter]
    _ = (x.rankedTags substring).map (·.1) := by
        rw [← map_rankedTags, List.filterMap_map]
        exact congrFun List.filterMap_eq_map _

/-- The facet has no bucket for an absent tag. -/
theorem keys_facet_tags (x : Index) :
    (x.facet {} .tags).keys = ((x.facet {} .tags).texts none).map some := by
  have hbuckets : (x.facet {} .tags).buckets = (x.rankedTags none).map tagBucket := by
    rw [map_rankedTags, eq_comm, List.filter_eq_self]
    intro b hb
    obtain ⟨t, -, rfl⟩ := mem_buckets_tags_iff.1 hb
    exact decide_eq_true (includesText_none t)
  rw [texts_facet_tags, FacetCounts.keys, hbuckets, List.map_map, List.map_map]
  rfl

theorem listTags_eq_take_texts (x : Index) (substring : Option String) (size : Nat) :
    x.listTags substring size = ((x.facet {} .tags).texts substring).take size := by
  rw [texts_facet_tags, ← List.map_take, listTags_eq]

end Index

namespace FacetCounts

variable {c : FacetCounts}

theorem texts_eq_filter (c : FacetCounts) (substring : Option String) :
    c.texts substring = (c.texts none).filter (IncludesText substring) := by
  have hnone : c.texts none = c.keys.filterMap id :=
    List.filter_eq_self.2 fun t _ => decide_eq_true (includesText_none t)
  rw [hnone, texts]

theorem nodup_texts (h : c.keys.Nodup) (substring : Option String) : (c.texts substring).Nodup := by
  refine (List.Nodup.filterMap (fun v w t hv hw => ?_) h).filter _
  rw [Option.mem_def, id_eq] at hv hw
  exact hv.trans hw.symm

end FacetCounts

namespace Service

open Attempt Schedule

/-- The values of a facet that contain the text, as many of the first as are asked for. -/
def page (c : FacetCounts) (substring : Option String) (size : Int64) : List String :=
  ((c.texts none).filter (IncludesText substring)).take size.toInt.toNat

variable {w : World} {substring : Option String} {size : Int64}

theorem run_listTags_of_nonpos (h : size.toInt ≤ 0) (fs : List (Option Failure)) :
    (listTags substring size).run.run w fs = (.returned (.ok []), w) := by
  rw [listTags, if_neg (not_lt.2 h)]
  rfl

theorem listTags_perform (x : Index) :
    (x.perform (.listTags substring size.toInt.toNat)).1 =
      page (x.facet {} .tags) substring size := by
  rw [page, ← FacetCounts.texts_eq_filter, ← Index.listTags_eq_take_texts]
  rfl

theorem page_of_nonpos (h : size.toInt ≤ 0) (c : FacetCounts) : page c substring size = [] := by
  rw [page, Int.toNat_of_nonpos h, List.take_zero]

theorem run_listTags :
    (listTags substring size).run.run w [] =
      (.returned (.ok (page (w.index.facet {} .tags) substring size)), w) := by
  by_cases h : 0 < size.toInt
  · rw [← listTags_perform, listTags, if_pos h]
    exact run_of_attains (attains_index_scheduled rfl ⟨rfl, rfl⟩)
  · rw [run_listTags_of_nonpos (not_lt.1 h), page_of_nonpos (not_lt.1 h)]

/-- Whatever fails, an answer is that of the index. -/
theorem eq_page_of_run_eq_ok {fs : List (Option Failure)} {tags : List String}
    (h : ((listTags substring size).run.run w fs).1 = .returned (.ok tags)) :
    tags = page (w.index.facet {} .tags) substring size := by
  by_cases hpos : 0 < size.toInt
  · rw [← listTags_perform]
    rw [listTags, if_pos hpos] at h
    rcases fs with _ | ⟨_ | f, fs⟩
    · cases h
      rfl
    · cases h
      rfl
    cases f with
    | index | panic => cases h
    | store | catalog | empty =>
      cases h
      rfl
  · rw [run_listTags_of_nonpos (not_lt.1 hpos)] at h
    cases h
    exact (page_of_nonpos (not_lt.1 hpos) _).symm

/-- The tags facet of all issues has texts only, each of them once, and a tag listing is the first
of those that contain the text asked for, in their order.  A size of zero or less asks for none of
them, for which the index is not called; a larger one only appends. -/
theorem tag_listing_follows_facet (w : World) (substring : Option String) (size : Int64) :
    let facet := w.index.facet {} .tags
    let tags := facet.texts none
    let listed := (tags.filter (IncludesText substring)).take size.toInt.toNat
    facet.keys = tags.map some ∧ tags.Nodup ∧
    (listTags substring size).run.run w [] = (.returned (.ok listed), w) ∧
    (∀ fs answer, ((listTags substring size).run.run w fs).1 = .returned (.ok answer) →
      answer = listed) ∧
    (size.toInt ≤ 0 → ∀ fs, (listTags substring size).run.run w fs = (.returned (.ok []), w)) ∧
    listed.Nodup ∧ listed.Sublist tags ∧
    ∀ larger : Int64, size.toInt ≤ larger.toInt → ∃ more,
      (listTags substring larger).run.run w [] = (.returned (.ok (listed ++ more)), w) := by
  have hnodup : ((w.index.facet {} .tags).texts none).Nodup :=
    FacetCounts.nodup_texts (w.index.tallies_facet {} .tags).nodup_keys none
  have hsublist : (page (w.index.facet {} .tags) substring size).Sublist
      ((w.index.facet {} .tags).texts none) :=
    (List.take_sublist _ _).trans List.filter_sublist
  refine ⟨w.index.keys_facet_tags, hnodup, run_listTags, fun fs answer => eq_page_of_run_eq_ok,
    run_listTags_of_nonpos, hnodup.sublist hsublist, hsublist, fun larger hle => ?_⟩
  obtain ⟨more, hmore⟩ : page (w.index.facet {} .tags) substring size <+:
      page (w.index.facet {} .tags) substring larger :=
    List.take_prefix_take_left (Int.toNat_le_toNat hle)
  exact ⟨more, hmore ▸ run_listTags⟩

/-- Two issues have a tag in common, and one of them has another. -/
def sampleTagged : World :=
  let doc (key : IssueKey) (tags : List String) :=
    { Issue.fresh key ⟨"repo:rule"⟩ ⟨⟨"app:a.c"⟩, ⟨"c1"⟩, ⟨"p1"⟩⟩ with
      tags := TextSet.ofList tags }.doc
  { index := (Index.put {} (doc ⟨"a"⟩ ["design", "bug"])).put (doc ⟨"b"⟩ ["bug"]) }

theorem tag_listing_follows_facet_sample :
    (listTags (some "g") 2).run.run sampleTagged [] =
      (.returned (.ok ["bug", "design"]), sampleTagged) ∧
    (listTags (some "g") 1).run.run sampleTagged [] = (.returned (.ok ["bug"]), sampleTagged) ∧
    (listTags (some "sign") 9).run.run sampleTagged [] =
      (.returned (.ok ["design"]), sampleTagged) := by
  have htexts : (sampleTagged.index.facet {} .tags).texts none = ["bug", "design"] := by
    rw [Index.texts_facet_tags, Index.rankedTags, List.mergeSort_of_pairwise (by decide +kernel)]
    decide +kernel
  refine ⟨?_, ?_, ?_⟩
  · obtain ⟨-, -, h, -⟩ := tag_listing_follows_facet sampleTagged (some "g") 2
    rw [h, htexts]
    rfl
  · obtain ⟨-, -, h, -⟩ := tag_listing_follows_facet sampleTagged (some "g") 1
    rw [h, htexts]
    rfl
  · obtain ⟨-, -, h, -⟩ := tag_listing_follows_facet sampleTagged (some "sign") 9
    rw [h, htexts]
    rfl

end Service

end Triage
