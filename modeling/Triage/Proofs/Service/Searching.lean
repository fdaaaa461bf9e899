import Triage.Proofs.Search.Listing
import Triage.Proofs.Search.Tally
import Triage.Proofs.Service.Schedule

/-!
# Searches of the service

A search of the service is one search of the index, with a page that is not above the limit.  So its
pages are slices of the one listing of the query, and what the service counts for a component or for
assignees adds up to the totals of searches.
-/

namespace Triage

namespace Service

open Attempt Schedule

variable {w : World} {limits : ServiceLimits} {q : IssueQuery} {c : QueryContext}

/-! ## Runs without failures -/

/-- What an attempt attains without failures is what its run comes to. -/
theorem run_of_attains {α : Type} {x : Attempt α} {a : α}
    (h : x.Attains scheduled (fun r s => r = .ok a ∧ s.world = w) ⟨w, []⟩) :
    x.run.run w [] = (.returned (.ok a), w) := by
  obtain ⟨_, s, hrun, rfl, hs⟩ := h.runFrom_scheduled []
  exact hs ▸ hrun

/-- The answer of the index to a call that only reads. -/
theorem attains_index_scheduled {call : IndexCall} (hcall : (w.index.perform call).2 = w.index)
    {Q : Except ServiceError call.Answer → Schedule → Prop}
    (hQ : Q (.ok (w.index.perform call).1) ⟨w, []⟩) : (index call).Attains scheduled Q ⟨w, []⟩ := by
  refine attains_index.2 (settled_of_head rfl ?_)
  have hafter : Schedule.after ⟨w, []⟩ (.index call) = ⟨w, []⟩ := by
    simp only [Schedule.after, World.perform, hcall, List.tail_nil]
  rw [hafter]
  exact hQ

/-! ## Pages -/

/-- The search of the index that answers a search of the service. -/
def request (limits : ServiceLimits) (q : IssueQuery) (c : QueryContext)
    (facets : List FacetField) : SearchRequest :=
  ⟨q, facets, c.offset, limits.pageSize c.limit, c.sort⟩

theorem run_search {facets : List FacetField} (h : c.facets.mapM facetNamed = .ok facets) :
    (search limits q c).run.run w [] =
      (.returned (.ok (w.index.search (request limits q c facets))), w) := by
  rw [search, h]
  rfl

/-- Whatever fails, an answer is that of the index. -/
theorem search_of_run_eq_ok {fs : List (Option Failure)} {r : SearchResult}
    (h : ((search limits q c).run.run w fs).1 = .returned (.ok r)) :
    ∃ facets, c.facets.mapM facetNamed = .ok facets ∧
      r = w.index.search (request limits q c facets) := by
  rcases hfacets : c.facets.mapM facetNamed with e | facets
  · rw [search, hfacets] at h
    cases h
  · refine ⟨facets, rfl, ?_⟩
    rw [search, hfacets] at h
    rcases fs with _ | ⟨_ | f, fs⟩
    · cases h
      rfl
    · cases h
      rfl
    cases f with
    | index | panic => cases h
    | store | catalog | empty =>
      cases h
      rfl

/-! ## Counts by component -/

end Service

/-- The query for the issues of the component, which for the root of a project are all of it. -/
def Component.scope (component : Component) (createdAfter : Option Timestamp) : IssueQuery :=
  if component.isProject then
    { projectUuids := [component.projectUuid], createdAfter := createdAfter }
  else { componentKeys := [component.key], createdAfter := createdAfter }

/-- The count of a bucket for a rule, with the name of the rule if it is known. -/
def Catalog.ruleCount? (c : Catalog) (b : FacetValue) : Option RuleCount :=
  b.value.map fun text => ⟨⟨text⟩, (c.rules.get? ⟨text⟩).map (·.name), b.count⟩

namespace Service

open Attempt Schedule

variable {w : World} {key : ComponentKey} {createdAfter : Option Timestamp} {component : Component}

theorem attains_componentQuery (h : w.catalog.component? key = some component)
    {Q : Except ServiceError IssueQuery → Schedule → Prop}
    (hQ : Q (.ok (component.scope createdAfter)) ⟨w, []⟩) :
    (componentQuery key createdAfter).Attains scheduled Q ⟨w, []⟩ := by
  refine attains_bind.2 (attains_catalog_scheduled rfl (attains_bind.2 (attains_found.2 ⟨?_, ?_⟩)))
  · intro found hfound
    cases h.symm.trans hfound
    unfold Component.scope at hQ
    change Attempt.Attains scheduled Q (if component.isProject then _ else _) ⟨w, []⟩
    split_ifs at hQ ⊢
    · exact hQ
    · exact hQ
  · intro hnone
    cases h.symm.trans hnone

theorem attains_nameRules (w : World) (bs : List FacetValue) :
    (nameRules bs).Attains scheduled
      (fun r s => r = .ok (bs.filterMap w.catalog.ruleCount?) ∧ s = ⟨w, []⟩) ⟨w, []⟩ := by
  induction bs with
  | nil => exact ⟨rfl, rfl⟩
  | cons b bs ih =>
    obtain ⟨_ | text, count⟩ := b
    · exact ih
    · refine attains_bind.2 (attains_catalog_scheduled rfl (attains_bind.2 (ih.mono ?_)))
      rintro _ _ ⟨rfl, rfl⟩
      exact ⟨rfl, rfl⟩

theorem run_rulesByComponent (h : w.catalog.component? key = some component) :
    (rulesByComponent key createdAfter).run.run w [] = (.returned (.ok
      ((w.index.facet (component.scope createdAfter) .rules).buckets.filterMap
        w.catalog.ruleCount?)), w) := by
  refine run_of_attains (attains_bind.2 (attains_componentQuery h ?_))
  refine attains_bind.2 (attains_index_scheduled rfl ((attains_nameRules w _).mono ?_))
  rintro _ _ ⟨rfl, rfl⟩
  exact ⟨rfl, rfl⟩

theorem run_severitiesByComponent (h : w.catalog.component? key = some component) :
    (severitiesByComponent key createdAfter).run.run w [] =
      (.returned (.ok (w.index.facet (component.scope createdAfter) .severities)), w) :=
  run_of_attains
    (attains_bind.2 (attains_componentQuery h (attains_index_scheduled rfl ⟨rfl, rfl⟩)))

end Service

namespace Index

open Service

/-- Whether a list is the listing of a query on what calls have left: it has the documents that were
left last under their keys and that the query accepts, in their order. -/
structure Lists (calls : List IndexCall) (q : IssueQuery) (o : Option SortOrder)
    (l : List IssueDoc) : Prop where
  mem_iff : ∀ d, d ∈ l ↔ lastLeft? d.key calls = some d ∧ q.accepts d = true
  sorted : l.Pairwise (SortOrder.Precedes o)

theorem lists_listing (calls : List IndexCall) (q : IssueQuery) (o : Option SortOrder) :
    Lists calls q o ((after {} calls).listing q o) where
  mem_iff d := by rw [mem_listing_iff (keyed_after calls), get?_after]
  sorted := pairwise_listing (keyed_after calls) q o

theorem Lists.eq_listing {calls : List IndexCall} {q : IssueQuery} {o : Option SortOrder}
    {l : List IssueDoc} (h : Lists calls q o l) : l = (after {} calls).listing q o := by
  refine Index.eq_listing (keyed_after calls) (fun d => ?_) h.sorted
  rw [h.mem_iff, get?_after]

/-- After any calls of the index, a query has one listing in each order, and every search is a slice
of it: it depends on what was left last under each key only, it has each document that the query
accepts once, and its pages of one size follow each other without gap.  A search of the service is
such a slice, not longer than the largest page. -/
theorem pages_are_slices (calls : List IndexCall) (q : IssueQuery) (o : Option SortOrder) :
    ∃ l, (∀ l', Lists calls q o l' ↔ l' = l) ∧
    (∀ d, l.count d = if lastLeft? d.key calls = some d ∧ q.accepts d = true then 1 else 0) ∧
    (∀ facets offset limit,
      ((after {} calls).search ⟨q, facets, offset, limit, o⟩).hits = (l.drop offset).take limit ∧
      ((after {} calls).search ⟨q, facets, offset, limit, o⟩).total = l.length) ∧
    (∀ calls', (∀ key, lastLeft? key calls' = lastLeft? key calls) →
      Lists calls' q o l ∧ ∀ r, (after {} calls').search r = (after {} calls).search r) ∧
    (∀ facets p n, 0 < p → (l.length + p - 1) / p ≤ n →
      ((List.range n).flatMap fun i =>
        ((after {} calls).search ⟨q, facets, i * p, p, o⟩).hits) = l) ∧
    ∀ (w : World) (limits : ServiceLimits) (c : QueryContext),
      w.index = after {} calls → c.sort = o →
      (∀ fs r, ((Service.search limits q c).run.run w fs).1 = .returned (.ok r) →
        r.hits = (l.drop c.offset).take
          (min (c.limit.getD limits.defaultPageSize) limits.maxPageSize) ∧
        r.total = l.length ∧ r.hits.length ≤ limits.maxPageSize) ∧
      ∀ facets, c.facets.mapM facetNamed = .ok facets →
        ∃ r, (Service.search limits q c).run.run w [] = (.returned (.ok r), w) := by
  refine ⟨(after {} calls).listing q o, fun l' => ⟨Lists.eq_listing, ?_⟩, fun d => ?_,
    fun _ _ _ => ⟨rfl, rfl⟩, fun calls' hcalls => ?_, fun facets p n hp hn => ?_, ?_⟩
  · rintro rfl
    exact lists_listing calls q o
  · have hnodup := (SortOrder.isRanking_precedes o).nodup (lists_listing calls q o).sorted
    rw [hnodup.count]
    exact if_congr ((lists_listing calls q o).mem_iff d) rfl rfl
  · rw [← after_congr hcalls]
    exact ⟨lists_listing calls' q o, fun _ => rfl⟩
  · refine (flatMap_take_drop ((after {} calls).listing q o) p n).trans (List.take_of_length_le ?_)
    have hlength := (Nat.div_lt_iff_lt_mul hp).1 (Nat.lt_succ_of_le hn)
    rw [Nat.succ_mul] at hlength
    omega
  · rintro w limits c hw rfl
    refine ⟨fun fs r hr => ?_, fun facets hfacets => ⟨_, run_search hfacets⟩⟩
    obtain ⟨facets, -, rfl⟩ := search_of_run_eq_ok hr
    rw [hw]
    refine ⟨rfl, rfl, ?_⟩
    exact (List.length_take_le _ _).trans (Nat.min_le_right _ _)

/-- Two issues are indexed, one of them twice. -/
def samplePuts : List IndexCall :=
  let doc (key : IssueKey) (createdAt : Timestamp) :=
    { Issue.fresh key ⟨"repo:rule"⟩ ⟨⟨"app:a.c"⟩, ⟨"c1"⟩, ⟨"p1"⟩⟩ with createdAt := createdAt }.doc
  [.put (doc ⟨"a"⟩ ⟨1000⟩), .put (doc ⟨"b"⟩ ⟨3000⟩), .put (doc ⟨"a"⟩ ⟨2000⟩)]

theorem pages_are_slices_sample :
    ((after {} samplePuts).search ⟨{}, [], 0, 10, none⟩).total = 2 ∧
    ((List.range 2).flatMap fun i => ((after {} samplePuts).search ⟨{}, [], i * 1, 1, none⟩).hits) =
      ((after {} samplePuts).search ⟨{}, [], 0, 10, none⟩).hits ∧
    ∃ r w,
      (Service.search {} {} { limit := some 1000 }).run.run { index := after {} samplePuts } [] =
        (.returned (.ok r), w) ∧ r.hits.length ≤ 500 ∧ r.total = 2 := by
  obtain ⟨l, -, -, hslice, -, hpages, hservice⟩ := pages_are_slices samplePuts {} none
  have htotal : l.length = 2 := by
    rw [← (hslice [] 0 10).2, total_search]
    decide +kernel
  obtain ⟨hanswer, hanswers⟩ :=
    hservice { index := after {} samplePuts } {} { limit := some 1000 } rfl rfl
  obtain ⟨r, hr⟩ := hanswers [] rfl
  obtain ⟨-, hrtotal, hrlength⟩ := hanswer [] r (congrArg Prod.fst hr)
  refine ⟨(hslice [] 0 10).2.trans htotal, ?_, r, _, hr, hrlength, hrtotal.trans htotal⟩
  rw [hpages [] 1 2 Nat.one_pos (by omega), (hslice [] 0 10).1, List.drop_zero,
    List.take_of_length_le (by omega)]

/-! ## Facets -/

variable {x : Index} {q : IssueQuery} {field : FacetField}

theorem sum_count_facet (x : Index) (q : IssueQuery) (field : FacetField) :
    ((x.facet q field).buckets.map (·.count)).sum =
      ((x.matching q).map fun d => (field.values d).length).sum :=
  FacetCounts.sum_count_aggregate field (x.matching q)

theorem total_eq_length_matching (x : Index) (r : SearchRequest) :
    (x.search r).total = (x.matching r.query).length := by
  rw [total_search, matching, List.countP_eq_length_filter]

/-- The counts of a field that each document has one of add up to the number of documents. -/
theorem sum_count_facet_of_ne_tags (x : Index) (q : IssueQuery) (hfield : field ≠ .tags) :
    ((x.facet q field).buckets.map (·.count)).sum = (x.matching q).length := by
  have hone : (fun d => (field.values d).length) = fun _ => 1 := by
    funext d
    obtain ⟨w, hw⟩ := FacetField.exists_values_eq hfield d
    rw [hw, List.length_singleton]
  rw [sum_count_facet, hone, List.map_const', List.sum_replicate_nat, Nat.mul_one]

/-- Every bucket of the rules is for one, so that naming the rules leaves none of them out. -/
theorem sum_ruleCounts (catalog : Catalog) (x : Index) (q : IssueQuery) :
    (((x.facet q .rules).buckets.filterMap catalog.ruleCount?).map (·.count)).sum =
      (x.matching q).length := by
  have hrules : FacetField.rules ≠ .tags := by decide
  rw [← sum_count_facet_of_ne_tags x q hrules, List.map_filterMap]
  have hcounts : ∀ b ∈ (x.facet q .rules).buckets,
      (catalog.ruleCount? b).map (·.count) = some b.count := by
    intro b hb
    obtain ⟨hcount, hpos⟩ := ((x.tallies_facet q .rules).mem_iff b).1 hb
    rw [hcount, List.countP_pos_iff] at hpos
    obtain ⟨d, -, hd⟩ := hpos
    obtain ⟨_ | text, count⟩ := b
    · simp [FacetField.values] at hd
    · rfl
  rw [List.filterMap_congr hcounts]
  exact congrArg List.sum (congrFun List.filterMap_eq_map _)

/-- A facet counts the documents that the query accepts and nothing else: its buckets have different
values and are in order, none is empty, and they add up to the documents, or for the tags to the
tags of the documents.  A search has the same facets for every page, and so has the service, whose
counts for a component add up to the total of the search that they are about. -/
theorem facets_are_exact (x : Index) (q : IssueQuery) :
    (∀ field, (x.facet q field).Tallies field (x.matching q) ∧ (x.facet q field).keys.Nodup ∧
      (field ≠ .tags →
        ((x.facet q field).buckets.map (·.count)).sum = (x.matching q).length) ∧
      (field = .tags →
        ((x.facet q field).buckets.map (·.count)).sum =
          ((x.matching q).map fun d => d.tags.size).sum)) ∧
    (∀ r name c, r.query = q → ((x.search r).facet? name = some c ↔
      ∃ field ∈ r.facets, label field = name ∧ c = x.facet q field)) ∧
    ∀ w : World, w.index = x →
      (∀ limits q c fs r, ((Service.search limits q c).run.run w fs).1 = .returned (.ok r) →
        ∃ request, request.query = q ∧ r = x.search request) ∧
      (∀ key createdAfter component, w.catalog.component? key = some component →
        let scope := component.scope createdAfter
        (componentQuery key createdAfter).run.run w [] = (.returned (.ok scope), w) ∧
        (∃ rules, (rulesByComponent key createdAfter).run.run w [] = (.returned (.ok rules), w) ∧
          ∀ r, r.query = scope → (rules.map (·.count)).sum = (x.search r).total) ∧
        ∃ c, (severitiesByComponent key createdAfter).run.run w [] = (.returned (.ok c), w) ∧
          ∀ r, r.query = scope → (c.buckets.map (·.count)).sum = (x.search r).total) ∧
      ∃ c, (assignees q).run.run w [] = (.returned (.ok c), w) ∧
        ∀ r, r.query = q → .assignees ∈ r.facets →
          (x.search r).facet? (label FacetField.assignees) = some c := by
  refine ⟨fun field => ⟨x.tallies_facet q field, (x.tallies_facet q field).nodup_keys,
    sum_count_facet_of_ne_tags x q, ?_⟩, ?_, ?_⟩
  · rintro rfl
    simp [sum_count_facet, FacetField.values, TextSet.size]
  · rintro r name c rfl
    exact facet?_search_eq_some
  · rintro w rfl
    refine ⟨fun limits q c fs r hr => ?_,
      fun key createdAfter component hcomponent => ⟨?_, ?_, ?_⟩, ?_⟩
    · obtain ⟨facets, -, hsearch⟩ := search_of_run_eq_ok hr
      exact ⟨request limits q c facets, rfl, hsearch⟩
    · exact run_of_attains (attains_componentQuery hcomponent ⟨rfl, rfl⟩)
    · refine ⟨_, run_rulesByComponent hcomponent, fun r hr => ?_⟩
      rw [sum_ruleCounts, total_eq_length_matching, hr]
    · refine ⟨_, run_severitiesByComponent hcomponent, fun r hr => ?_⟩
      rw [sum_count_facet_of_ne_tags _ _ (by decide), total_eq_length_matching, hr]
    · refine ⟨_, run_of_attains (attains_index_scheduled rfl ⟨rfl, rfl⟩), fun r hr hfacets => ?_⟩
      exact facet?_search_eq_some.2 ⟨.assignees, hfacets, rfl, hr ▸ rfl⟩

/-- The sample world with two issues in its index. -/
def sampleIndexed : World :=
  { World.sample with index := (put {} (sampleIssue "a").doc).put (sampleIssue "b").doc }

theorem facets_are_exact_sample :
    (∃ component, sampleIndexed.catalog.component? ⟨"sample"⟩ = some component) ∧
    (∃ rules, (rulesByComponent ⟨"sample"⟩ none).run.run sampleIndexed [] =
      (.returned (.ok rules), sampleIndexed) ∧ (rules.map (·.count)).sum = 2) ∧
    (∃ c, (severitiesByComponent ⟨"sample"⟩ none).run.run sampleIndexed [] =
      (.returned (.ok c), sampleIndexed) ∧ (c.buckets.map (·.count)).sum = 2) ∧
    ∃ c, (assignees {}).run.run sampleIndexed [] = (.returned (.ok c), sampleIndexed) ∧
      (sampleIndexed.index.search ⟨{}, [.tags, .assignees], 1, 1, none⟩).facet? "assignees" =
        some c := by
  obtain ⟨-, -, hservice⟩ := facets_are_exact sampleIndexed.index {}
  obtain ⟨-, hcomponents, hassignees⟩ := hservice sampleIndexed rfl
  have hcomponent : sampleIndexed.catalog.component? ⟨"sample"⟩ =
      some ⟨⟨"sample"⟩, ⟨"sample"⟩, ⟨"sample"⟩⟩ := by decide +kernel
  obtain ⟨-, ⟨rules, hrules, hrulesSum⟩, c, hc, hcSum⟩ := hcomponents _ none _ hcomponent
  have htotal : (sampleIndexed.index.search
      ⟨Component.scope ⟨⟨"sample"⟩, ⟨"sample"⟩, ⟨"sample"⟩⟩ none, [], 0, 1, none⟩).total = 2 := by
    rw [total_search]
    decide +kernel
  obtain ⟨found, hfound, hfacet⟩ := hassignees
  exact ⟨⟨_, hcomponent⟩, ⟨rules, hrules, (hrulesSum _ rfl).trans htotal⟩,
    ⟨c, hc, (hcSum _ rfl).trans htotal⟩, found, hfound, hfacet _ rfl (by decide)⟩

end Index

end Triage
