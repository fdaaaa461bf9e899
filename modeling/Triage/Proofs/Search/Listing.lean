import Mathlib.Data.List.Induction
import Triage.Proofs.KeyMap
import Triage.Proofs.Search.Ranking
import Triage.Service.World

/-!
# Listings

Documents stand in one strict order: by the requested field, then by key.  As no two documents of an
index have the same key, a listing is the only list of the accepted documents in that order,
whatever calls the documents have come by, and the pages of one size are its pieces one after the
other.
-/

namespace Triage

/-! ## The order of documents -/

theorem Timestamp.lt_iff {s t : Timestamp} : s < t ↔ s.millis.toInt < t.millis.toInt :=
  Int64.lt_iff_toInt_lt

/-- Whether the first document has less of the field. -/
def SortField.Less : SortField → IssueDoc → IssueDoc → Prop
  | .createdAt, a, b => a.createdAt < b.createdAt
  | .updatedAt, a, b => a.updatedAt < b.updatedAt
  | .severity, a, b => a.severity.rank < b.severity.rank

namespace SortOrder

/-- Whether the requested field puts the first document ahead.  Without a request the one that was
created later is ahead. -/
def Ahead : Option SortOrder → IssueDoc → IssueDoc → Prop
  | none, a, b => b.createdAt < a.createdAt
  | some ⟨field, true⟩, a, b => field.Less a b
  | some ⟨field, false⟩, a, b => field.Less b a

/-- Whether the first document stands before the second: it is ahead, or neither is and its key is
the lesser one. -/
def Precedes (o : Option SortOrder) (a b : IssueDoc) : Prop :=
  Ahead o a b ∨ ¬Ahead o b a ∧ a.key < b.key

variable {o : Option SortOrder} {a b c : IssueDoc}

theorem ahead_iff : Ahead o a b ↔ rank o a < rank o b := by
  rcases o with _ | ⟨_ | _ | _, _ | _⟩ <;>
    simp [Ahead, SortField.Less, rank, Timestamp.lt_iff]

theorem precedes_iff : Precedes o a b ↔ ByRank (rank o) (fun a b => a.key < b.key) a b := by
  rw [Precedes, ahead_iff, ahead_iff, ByRank]
  by_cases hkey : a.key < b.key
  · simp only [hkey, and_true]
    omega
  · simp only [hkey, and_false]

theorem isRanking_precedes (o : Option SortOrder) : IsRanking (Precedes o) := by
  have h := (isRanking_text.comap fun d : IssueDoc => d.key.text).byRank (rank o)
  rwa [show Precedes o = ByRank (rank o) fun a b => a.key < b.key from
    funext₂ fun a b => propext precedes_iff]

theorem before_iff : before o a b = true ↔ Precedes o a b := by
  rw [precedes_iff]
  simp [before, ByRank]

/-- Of two documents with different keys one stands before the other. -/
theorem precedes_or_precedes (h : a.key ≠ b.key) : Precedes o a b ∨ Precedes o b a := by
  rw [precedes_iff, precedes_iff]
  exact byRank_or_byRank fun _ => text_lt_or_lt fun htext => h (Id.ext_text htext)

end SortOrder

/-! ## What calls leave in an index -/

/-- The key whose document the call sets or removes. -/
def IndexCall.subject? : IndexCall → Option IssueKey
  | .put d => some d.key
  | .remove key => some key
  | _ => none

/-- The document that the call leaves under its key. -/
def IndexCall.left? : IndexCall → Option IssueDoc
  | .put d => some d
  | _ => none

namespace Index

/-- The index after calls made one after the other. -/
def after (x : Index) (calls : List IndexCall) : Index :=
  calls.foldl (fun x c => (x.perform c).2) x

/-- What the last call that is about the key has left under it. -/
def lastLeft? (key : IssueKey) (calls : List IndexCall) : Option IssueDoc :=
  (calls.reverse.find? fun c => c.subject? = some key).bind IndexCall.left?

/-- Whether every document stands under its own key. -/
def Keyed (x : Index) : Prop := ∀ key d, x.get? key = some d → d.key = key

variable {x : Index} {q : IssueQuery} {o : Option SortOrder} {d : IssueDoc} {key : IssueKey}
  {calls : List IndexCall}

theorem get?_perform (x : Index) (c : IndexCall) (key : IssueKey) :
    (x.perform c).2.get? key = if c.subject? = some key then c.left? else x.get? key := by
  cases c with
  | put d => simp [perform, get?, put, KeyMap.get?_insert, IndexCall.subject?, IndexCall.left?]
  | remove k => simp [perform, get?, remove, KeyMap.get?_erase, IndexCall.subject?, IndexCall.left?]
  | keys | get | search | listTags | facet => rfl

theorem lastLeft?_concat (key : IssueKey) (calls : List IndexCall) (c : IndexCall) :
    lastLeft? key (calls ++ [c]) =
      if c.subject? = some key then c.left? else lastLeft? key calls := by
  unfold lastLeft?
  rw [List.reverse_append, List.reverse_singleton, List.singleton_append, List.find?_cons]
  by_cases h : c.subject? = some key <;> simp [h]

/-- Under each key stands what the last call about it has left. -/
theorem get?_after (calls : List IndexCall) (key : IssueKey) :
    (after {} calls).get? key = lastLeft? key calls := by
  induction calls using List.reverseRecOn with
  | nil => rfl
  | append_singleton calls c ih =>
    rw [lastLeft?_concat, ← ih, after, List.foldl_concat, get?_perform]
    rfl

theorem keyed_after (calls : List IndexCall) : (after {} calls).Keyed := by
  intro key d h
  rw [get?_after] at h
  obtain ⟨c, hc, hleft⟩ := Option.bind_eq_some_iff.1 h
  have hsubject : c.subject? = some key := by simpa using List.find?_some hc
  cases c <;> cases hleft
  exact Option.some.inj hsubject

theorem after_congr {calls' : List IndexCall}
    (h : ∀ key, lastLeft? key calls' = lastLeft? key calls) : after {} calls' = after {} calls := by
  have hdocs : (after {} calls').docs = (after {} calls).docs := by
    refine KeyMap.ext_get? fun key => ?_
    have hkey := h key
    rwa [← get?_after, ← get?_after] at hkey
  exact congrArg Index.mk hdocs

/-! ## The listing -/

theorem mem_matching_iff (hx : x.Keyed) :
    d ∈ x.matching q ↔ x.get? d.key = some d ∧ q.accepts d = true := by
  rw [matching, List.mem_filter, KeyMap.values, List.mem_map]
  refine and_congr_left fun _ => ⟨?_, fun h => ⟨(d.key, d), KeyMap.mem_entries_iff.2 h, rfl⟩⟩
  rintro ⟨⟨key, d⟩, he, rfl⟩
  have hget : x.get? key = some d := KeyMap.mem_entries_iff.1 he
  rwa [hx key d hget]

theorem pairwise_matching (hx : x.Keyed) (q : IssueQuery) :
    (x.matching q).Pairwise fun a b => a.key ≠ b.key := by
  refine List.Pairwise.filter _ (List.pairwise_map.2 ?_)
  refine x.docs.sorted.imp_of_mem fun {e f} he hf hlt => ?_
  rw [hx e.1 e.2 (KeyMap.mem_entries_iff.1 he), hx f.1 f.2 (KeyMap.mem_entries_iff.1 hf)]
  exact Id.ne_of_lt hlt

theorem mem_listing_iff (hx : x.Keyed) :
    d ∈ x.listing q o ↔ x.get? d.key = some d ∧ q.accepts d = true :=
  List.mem_mergeSort.trans (mem_matching_iff hx)

theorem pairwise_listing (hx : x.Keyed) (q : IssueQuery) (o : Option SortOrder) :
    (x.listing q o).Pairwise (SortOrder.Precedes o) := by
  have hranking : IsRanking fun a b => SortOrder.before o a b = true := by
    simpa only [SortOrder.before_iff] using SortOrder.isRanking_precedes o
  have hsorted := pairwise_mergeSort_of_isRanking hranking (l := x.matching q)
    ((pairwise_matching hx q).imp fun hne => by
      simpa only [SortOrder.before_iff] using SortOrder.precedes_or_precedes hne)
  exact hsorted.imp SortOrder.before_iff.1

/-- A list is the listing if it has the same documents in the same order. -/
theorem eq_listing (hx : x.Keyed) {l : List IssueDoc}
    (hmem : ∀ d, d ∈ l ↔ x.get? d.key = some d ∧ q.accepts d = true)
    (hl : l.Pairwise (SortOrder.Precedes o)) : l = x.listing q o :=
  (SortOrder.isRanking_precedes o).eq_of_mem_iff hl (pairwise_listing hx q o) fun d =>
    (hmem d).trans (mem_listing_iff hx).symm

end Index

/-- The pieces of one length make up the front of a list. -/
theorem flatMap_take_drop {α : Type} (l : List α) (p n : Nat) :
    ((List.range n).flatMap fun i => (l.drop (i * p)).take p) = l.take (n * p) := by
  induction n with
  | zero => simp
  | succ n ih =>
    rw [List.range_succ, List.flatMap_append, ih, List.flatMap_singleton, Nat.succ_mul,
      List.take_add]

end Triage
