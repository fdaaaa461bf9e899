import Mathlib.Algebra.BigOperators.Group.List.Lemmas
import Mathlib.Algebra.Ring.Nat
import Mathlib.Data.List.Dedup
import Mathlib.Data.List.Induction
import Triage.Proofs.KeyMap
import Triage.Proofs.Search.Ranking
import Triage.Search.Index

/-!
# Facets

A facet has one bucket for each value that a document adds to it, with the number of the documents
that add it, and the buckets stand in one strict order.  This leaves one facet only for a set of
documents, in whatever order they come, and so a search and the index by itself count the same.
-/

namespace Triage

theorem nodup_eraseDups {α : Type} [BEq α] [LawfulBEq α] (l : List α) : l.eraseDups.Nodup := by
  match l with
  | [] => simp
  | a :: l =>
    rw [List.eraseDups_cons, List.nodup_cons]
    exact ⟨by simp, nodup_eraseDups (l.filter fun b => !b == a)⟩
termination_by l.length
decreasing_by exact Nat.lt_succ_of_le (List.length_filter_le _ _)

/-- The numbers of times that the members occur add up to the length. -/
theorem sum_count_eraseDups {α : Type} [inst : BEq α] [LawfulBEq α] (l : List α) :
    (l.eraseDups.map l.count).sum = l.length := by
  classical
  cases lawful_beq_subsingleton inst instBEqOfDecidableEq
  have hperm : l.eraseDups.Perm l.dedup :=
    (List.perm_ext_iff_of_nodup (nodup_eraseDups l) l.nodup_dedup).2 fun a => by simp
  rw [(hperm.map l.count).sum_eq]
  exact l.sum_map_count_dedup_eq_length

/-! ## The order of buckets -/

namespace FacetValue

/-- Whether the first value stands before the second: the other one is absent and it is not, or it
is the lesser text. -/
def ValuePrecedes (v w : Option String) : Prop :=
  v ≠ none ∧ w = none ∨ ∃ s t, v = some s ∧ w = some t ∧ s < t

/-- Whether the first bucket stands before the second: it is the fuller one, or they are equally
full and its value stands before. -/
def Precedes (a b : FacetValue) : Prop :=
  b.count < a.count ∨ a.count = b.count ∧ ValuePrecedes a.value b.value

variable {v w : Option String} {a b : FacetValue}

/-- Values that are there have rank 0, the absent one has rank 1. -/
def absence (v : Option String) : Int := if v.isNone then 1 else 0

theorem valuePrecedes_iff :
    ValuePrecedes v w ↔ ByRank absence (fun v w => v.getD "" < w.getD "") v w := by
  cases v <;> cases w <;> simp [ValuePrecedes, ByRank, absence]

theorem valueBefore_iff : valueBefore v w = true ↔ ValuePrecedes v w := by
  cases v <;> cases w <;> simp [valueBefore, ValuePrecedes]

theorem isRanking_valuePrecedes : IsRanking ValuePrecedes := by
  have h := (isRanking_text.comap fun v : Option String => v.getD "").byRank absence
  rwa [show ValuePrecedes = ByRank absence fun v w => v.getD "" < w.getD "" from
    funext₂ fun v w => propext valuePrecedes_iff]

theorem valuePrecedes_or (h : v ≠ w) : ValuePrecedes v w ∨ ValuePrecedes w v := by
  rcases v with _ | s <;> rcases w with _ | t
  · exact absurd rfl h
  · exact .inr (.inl ⟨by simp, rfl⟩)
  · exact .inl (.inl ⟨by simp, rfl⟩)
  · exact (text_lt_or_lt fun hst => h (congrArg some hst)).imp
      (fun hlt => .inr ⟨s, t, rfl, rfl, hlt⟩) fun hlt => .inr ⟨t, s, rfl, rfl, hlt⟩

theorem precedes_iff : Precedes a b ↔
    ByRank (fun b => -(b.count : Int)) (fun a b => ValuePrecedes a.value b.value) a b := by
  have hlt : b.count < a.count ↔ -(a.count : Int) < -(b.count : Int) := by omega
  have heq : a.count = b.count ↔ -(a.count : Int) = -(b.count : Int) := by omega
  exact or_congr hlt (and_congr_left' heq)

theorem before_iff : before a b = true ↔ Precedes a b := by
  simp [before, Precedes, valueBefore_iff]

theorem isRanking_precedes : IsRanking Precedes := by
  have h := (isRanking_valuePrecedes.comap value).byRank fun b => -(b.count : Int)
  rwa [show Precedes = ByRank _ _ from funext₂ fun a b => propext precedes_iff]

/-- Of two buckets with different values one stands before the other. -/
theorem precedes_or_precedes (h : a.value ≠ b.value) : Precedes a b ∨ Precedes b a := by
  rw [precedes_iff, precedes_iff]
  exact byRank_or_byRank fun _ => valuePrecedes_or h

end FacetValue

/-! ## Counts -/

/-- Whether the facet counts the documents by the field: it has just the values that some of them
add, each with the number of those that do, in the order of the buckets. -/
structure FacetCounts.Tallies (c : FacetCounts) (field : FacetField) (docs : List IssueDoc) :
    Prop where
  mem_iff : ∀ b, b ∈ c.buckets ↔
    b.count = docs.countP (b.value ∈ field.values ·) ∧ 0 < b.count
  sorted : c.buckets.Pairwise FacetValue.Precedes

namespace FacetCounts

variable {c c' : FacetCounts} {field : FacetField} {docs docs' : List IssueDoc}

theorem Tallies.of_perm (h : c.Tallies field docs) (hdocs : docs.Perm docs') :
    c.Tallies field docs' where
  mem_iff b := by rw [h.mem_iff, hdocs.countP_eq]
  sorted := h.sorted

theorem Tallies.unique (h : c.Tallies field docs) (h' : c'.Tallies field docs) : c = c' := by
  have hbuckets := FacetValue.isRanking_precedes.eq_of_mem_iff h.sorted h'.sorted fun b =>
    (h.mem_iff b).trans (h'.mem_iff b).symm
  exact congrArg FacetCounts.mk hbuckets

/-- No value has two buckets. -/
theorem Tallies.nodup_keys (h : c.Tallies field docs) : c.keys.Nodup := by
  refine List.Nodup.map_on (fun a ha b hb hvalue => ?_)
    (FacetValue.isRanking_precedes.nodup h.sorted)
  have hcount : a.count = b.count := by
    rw [((h.mem_iff a).1 ha).1, ((h.mem_iff b).1 hb).1, hvalue]
  cases a
  cases b
  simp_all

/-- The count of a value is the number of documents that add it, also where it has no bucket. -/
theorem Tallies.countOf_eq (h : c.Tallies field docs) (v : Option String) :
    c.countOf v = docs.countP (v ∈ field.values ·) := by
  have hcount : c.countOf v =
      ((c.buckets.find? fun b => b.value = v).map FacetValue.count).getD 0 := rfl
  rcases hfind : c.buckets.find? fun b => b.value = v with _ | b
  · rw [hcount, hfind, Option.map_none, Option.getD_none, eq_comm]
    by_contra hne
    have hbucket :=
      (h.mem_iff ⟨v, docs.countP (v ∈ field.values ·)⟩).2 ⟨rfl, Nat.pos_of_ne_zero hne⟩
    exact List.find?_eq_none.1 hfind _ hbucket (decide_eq_true rfl)
  · rw [hcount, hfind]
    obtain rfl : b.value = v := by simpa using List.find?_some hfind
    exact ((h.mem_iff b).1 (List.mem_of_find?_eq_some hfind)).1

end FacetCounts

theorem FacetField.nodup_values (field : FacetField) (d : IssueDoc) : (field.values d).Nodup := by
  cases field with
  | tags =>
    refine List.Nodup.map (Option.some_injective _) ?_
    have : Std.Irrefl fun s t : String => s < t := ⟨String.lt_irrefl⟩
    exact d.tags.sorted.nodup
  | _ => exact List.nodup_singleton _

/-- A document has one value of every field but the tags. -/
theorem FacetField.exists_values_eq {field : FacetField} (h : field ≠ .tags) (d : IssueDoc) :
    ∃ w, field.values d = [w] := by
  cases field with
  | tags => exact absurd rfl h
  | _ => exact ⟨_, rfl⟩

/-- The documents that add a value, each counted once. -/
theorem count_flatMap_values (field : FacetField) (docs : List IssueDoc) (v : Option String) :
    (docs.flatMap field.values).count v = docs.countP (v ∈ field.values ·) := by
  induction docs with
  | nil => rfl
  | cons d docs ih =>
    rw [List.flatMap_cons, List.count_append, ih, (field.nodup_values d).count, List.countP_cons,
      Nat.add_comm]
    simp

namespace FacetCounts

/-- Buckets with different values are put into their order. -/
theorem sorted_ofBuckets {bs : List FacetValue} (h : bs.Pairwise fun a b => a.value ≠ b.value) :
    (ofBuckets bs).buckets.Pairwise FacetValue.Precedes := by
  have hranking : IsRanking fun a b => FacetValue.before a b = true := by
    simpa only [FacetValue.before_iff] using FacetValue.isRanking_precedes
  have hsorted := pairwise_mergeSort_of_isRanking hranking (l := bs) (h.imp fun hne => by
    simpa only [FacetValue.before_iff] using FacetValue.precedes_or_precedes hne)
  exact hsorted.imp FacetValue.before_iff.1

theorem perm_buckets_aggregate (field : FacetField) (docs : List IssueDoc) :
    let vs := docs.flatMap field.values
    (aggregate field docs).buckets.Perm (vs.eraseDups.map fun v => ⟨v, vs.count v⟩) :=
  List.mergeSort_perm _ _

theorem tallies_aggregate (field : FacetField) (docs : List IssueDoc) :
    (aggregate field docs).Tallies field docs where
  mem_iff := by
    rintro ⟨v, n⟩
    rw [(perm_buckets_aggregate field docs).mem_iff, ← count_flatMap_values]
    simp only [List.mem_map, List.mem_eraseDups, FacetValue.mk.injEq]
    constructor
    · rintro ⟨v, hv, rfl, rfl⟩
      exact ⟨rfl, List.count_pos_iff.2 hv⟩
    · rintro ⟨rfl, hpos⟩
      exact ⟨v, List.count_pos_iff.1 hpos, rfl, rfl⟩
  sorted := sorted_ofBuckets (List.pairwise_map.2 (nodup_eraseDups _))

/-- The counts add up to the number of values that the documents add. -/
theorem sum_count_aggregate (field : FacetField) (docs : List IssueDoc) :
    ((aggregate field docs).buckets.map (·.count)).sum =
      (docs.map fun d => (field.values d).length).sum := by
  rw [((perm_buckets_aggregate field docs).map FacetValue.count).sum_eq, List.map_map]
  exact (sum_count_eraseDups (docs.flatMap field.values)).trans List.length_flatMap

theorem aggregate_of_perm {field : FacetField} {docs docs' : List IssueDoc}
    (h : docs.Perm docs') : aggregate field docs = aggregate field docs' :=
  ((tallies_aggregate field docs).of_perm h).unique (tallies_aggregate field docs')

end FacetCounts

/-! ## Facets of a search -/

theorem FacetField.eq_of_label_eq {f g : FacetField} (h : label f = label g) : f = g := by
  revert h
  cases f <;> cases g <;> decide

namespace Index

variable {x : Index} {r : SearchRequest}

/-- The total of a search is the number of documents that the query accepts, whatever the page. -/
theorem total_search (x : Index) (r : SearchRequest) :
    (x.search r).total = x.docs.values.countP r.query.accepts := by
  rw [search, listing, List.length_mergeSort, matching, List.countP_eq_length_filter]

theorem tallies_facet (x : Index) (q : IssueQuery) (field : FacetField) :
    (x.facet q field).Tallies field (x.matching q) :=
  FacetCounts.tallies_aggregate field (x.matching q)

/-- A search has the facets that are asked for and no others, and each is the facet of the index by
itself. -/
theorem facet?_search_eq_some {name : String} {c : FacetCounts} :
    (x.search r).facet? name = some c ↔
      ∃ field ∈ r.facets, label field = name ∧ c = x.facet r.query field := by
  have hfacet (field : FacetField) :
      FacetCounts.aggregate field (x.listing r.query r.sort) = x.facet r.query field :=
    FacetCounts.aggregate_of_perm (List.mergeSort_perm _ _)
  simp only [SearchResult.facet?, search, hfacet]
  induction r.facets using List.reverseRecOn with
  | nil => simp
  | append_singleton fields field ih =>
    rw [List.foldl_concat, KeyMap.get?_insert]
    split_ifs with hname
    · rw [Id.mk.injEq] at hname
      constructor
      · intro hc
        exact ⟨field, by simp, hname, (Option.some.inj hc).symm⟩
      · rintro ⟨field', -, hlabel, rfl⟩
        rw [FacetField.eq_of_label_eq (hlabel.trans hname.symm)]
    · rw [Id.mk.injEq] at hname
      refine ih.trans ?_
      constructor
      · rintro ⟨field', hmem, h⟩
        exact ⟨field', List.mem_append_left _ hmem, h⟩
      · rintro ⟨field', hmem, hlabel, hc⟩
        rcases List.mem_append.1 hmem with hmem | hmem
        · exact ⟨field', hmem, hlabel, hc⟩
        · exact absurd (List.mem_singleton.1 hmem ▸ hlabel) hname

end Index

end Triage
