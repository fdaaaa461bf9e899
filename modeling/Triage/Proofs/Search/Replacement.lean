import Triage.Proofs.Search.DrillDown
import Triage.Proofs.Search.Listing

/-!
# Documents that take the place of others

A document that is put into an index takes the place of the one under its key, if there is one, and
leaves all others.  So whatever is counted over the index loses what the old document added to it
and gains what the new one adds.
-/

namespace Triage

namespace IssueQuery

/-- How often the document adds the value to the facet of the query. -/
def share (q : IssueQuery) (field : FacetField) (v : Option String) (d : IssueDoc) : Nat :=
  if q.accepts d then (field.values d).count v else 0

theorem share_eq (q : IssueQuery) (field : FacetField) (v : Option String) (d : IssueDoc) :
    q.share field v d = (decide (v ∈ field.values d) && q.accepts d).toNat := by
  rw [share, (field.nodup_values d).count]
  cases q.accepts d <;> simp [Bool.toNat]

end IssueQuery

namespace Index

/-- Whether one document of the index has given way to another, or has come into it: what is counted
has changed by what the two add, in every facet by itself and in those of a search, and the new
document is a hit of the queries that accept it. -/
structure Follows (x x' : Index) (old : Option IssueDoc) (new : IssueDoc) : Prop where
  countOf : ∀ q field v, ((x'.facet q field).countOf v : Int) =
    (x.facet q field).countOf v - (old.map (q.share field v)).getD 0 + q.share field v new
  facets : ∀ r field, field ∈ r.facets →
    (x.search r).facet? (label field) = some (x.facet r.query field) ∧
    (x'.search r).facet? (label field) = some (x'.facet r.query field)
  total : ∀ r, ((x'.search r).total : Int) =
    (x.search r).total - (old.map fun d => (r.query.accepts d).toNat).getD 0 +
      (r.query.accepts new).toNat
  hits : ∀ r, r.offset = 0 → (x'.search r).total ≤ r.limit →
    ((∃ d ∈ (x'.search r).hits, d.key = new.key) ↔ r.query.accepts new = true)

variable {x : Index} {d : IssueDoc}

/-- The documents with a property, counted after a document is put. -/
theorem countP_put (x : Index) (d : IssueDoc) (p : IssueDoc → Bool) :
    ((x.put d).docs.values.countP p : Int) =
      x.docs.values.countP p - ((x.get? d.key).map fun d => (p d).toNat).getD 0 + (p d).toNat := by
  have hcons (a : IssueDoc) (l : List IssueDoc) : (a :: l).countP p = l.countP p + (p a).toNat := by
    rw [List.countP_cons]
    cases p a <;> rfl
  rw [Index.put, (x.docs.perm_values_insert d.key d).countP_eq, hcons]
  rcases hold : x.get? d.key with _ | old
  · rw [KeyMap.erase_eq_self hold]
    simp
  · rw [(KeyMap.perm_values_of_get? hold).countP_eq, hcons]
    simp

theorem Keyed.put (hx : x.Keyed) (d : IssueDoc) : (x.put d).Keyed := by
  intro key e he
  rw [get?, Index.put, KeyMap.get?_insert] at he
  split_ifs at he with hkey
  · exact Option.some.inj he ▸ hkey
  · exact hx key e he

/-- Where the page holds all that a query accepts, a document is a hit if it is accepted. -/
theorem exists_hit_iff (hx : x.Keyed) {r : SearchRequest} (hoffset : r.offset = 0)
    (hlimit : (x.search r).total ≤ r.limit) (hd : x.get? d.key = some d) :
    (∃ e ∈ (x.search r).hits, e.key = d.key) ↔ r.query.accepts d = true := by
  have hhits : (x.search r).hits = x.listing r.query r.sort := by
    rw [search, hoffset, List.drop_zero]
    exact List.take_of_length_le hlimit
  simp only [hhits, mem_listing_iff hx]
  constructor
  · rintro ⟨e, ⟨he, haccepts⟩, hkey⟩
    rw [hkey, hd] at he
    exact Option.some.inj he ▸ haccepts
  · exact fun haccepts => ⟨d, ⟨hd, haccepts⟩, rfl⟩

theorem follows_put (hx : x.Keyed) (d : IssueDoc) : x.Follows (x.put d) (x.get? d.key) d where
  countOf q field v := by
    have hshare : q.share field v = fun d => (decide (v ∈ field.values d) && q.accepts d).toNat :=
      funext (q.share_eq field v)
    rw [countOf_facet, countOf_facet, hshare]
    exact x.countP_put d _
  facets r field hfield := ⟨facet?_search_eq_some.2 ⟨field, hfield, rfl, rfl⟩,
    facet?_search_eq_some.2 ⟨field, hfield, rfl, rfl⟩⟩
  total r := by
    rw [total_search, total_search]
    exact x.countP_put d _
  hits r hoffset hlimit :=
    exists_hit_iff (hx.put d) hoffset hlimit (KeyMap.get?_insert_self x.docs d.key d)

end Index

end Triage
