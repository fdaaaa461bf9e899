import Triage.Codec.Search
import Triage.Proofs.Codec.Exact
import Triage.Proofs.KeyMap
import Triage.Proofs.Result

/-!
# JSON forms of facets

A count is read only if it fits into 64 bits, and this is all that the form of a facet asks of its
buckets: they are read in the order in which they are told, whatever it is, and as often.  What is
written for a facet, alone or in the result of a search, is read as that facet or not at all.
-/

namespace Triage

section Forms

variable {α : Type} [JsonForm α]

/-- Whether nothing but `a` is read from what is written for `a`. -/
structure ReadsOnlyAs (a : α) : Prop where
  proper : (toJson a).Proper
  only : ∀ b, JsonForm.ofJson? (toJson a) = some b → b = a

theorem ReadsOnlyAs.ofJsonText? {a b : α} (h : ReadsOnlyAs a)
    (hb : ofJsonText? (jsonText a) = some b) : b = a := by
  rw [Triage.ofJsonText?, jsonText, Json.parse?_print h.proper] at hb
  exact h.only b hb

/-- Whether some value of the data format is read as `a`. -/
def Legible (a : α) : Prop := ∃ j, JsonForm.ofJson? j = some a

theorem ReadsAs.legible {a b : α} (h : ReadsAs a b) : Legible b := ⟨_, h.read⟩

theorem legible_of_ofJsonText? {t : String} {a : α} (h : ofJsonText? t = some a) : Legible a := by
  obtain ⟨j, -, hj⟩ := Option.bind_eq_some_iff.1 h
  exact ⟨j, hj⟩

end Forms

/-! ## Fields -/

namespace Record

variable {α : Type} [JsonForm α] {r : Record Json} {name : String}

theorem legible_of_field {a : α} (h : r.field name = some a) : Legible a := by
  obtain ⟨j, -, hj⟩ := Option.bind_eq_some_iff.1 h
  exact ⟨j, hj⟩

theorem eq_of_field {a b : α} (hget : r.get? name = some (toJson a)) (ha : ReadsOnlyAs a)
    (h : r.field name = some b) : b = a := by
  rw [field, required, hget] at h
  exact ha.only b h

end Record

/-! ## Counts -/

theorem readsAs_nat {n : Nat} (h : n < 2 ^ 64) : ReadsAs n n :=
  ⟨Json.proper_int n, Json.natBelow?_nat h⟩

theorem Json.natBelow?_eq_some {width n : Nat} {j : Json} (h : j.natBelow? width = some n) :
    ∃ i : Int, j.int? = some i ∧ i < Int.pow 2 width ∧ i.toNat = n := by
  obtain ⟨i, hi, h⟩ := Option.bind_eq_some_iff.1 h
  obtain ⟨hrange, hn⟩ := Option.ite_none_right_eq_some.1 h
  exact ⟨i, hi, hrange.2, Option.some.inj hn⟩

theorem readsOnlyAs_nat (n : Nat) : ReadsOnlyAs n where
  proper := Json.proper_int n
  only m hm := by
    obtain ⟨i, hi, -, rfl⟩ := Json.natBelow?_eq_some hm
    obtain rfl : (n : Int) = i := Option.some.inj ((Json.int?_int n).symm.trans hi)
    exact Int.toNat_natCast n

theorem lt_of_legible_nat {n : Nat} (h : Legible n) : n < 2 ^ 64 := by
  obtain ⟨j, hj⟩ := h
  obtain ⟨i, -, hlt, rfl⟩ := Json.natBelow?_eq_some hj
  have hpow : Int.pow 2 64 = 2 ^ 64 := rfl
  omega

/-! ## Lists -/

theorem eq_of_forall₂ {α : Type} {R : α → α → Prop} {xs ys : List α} (h : List.Forall₂ R xs ys)
    (hR : ∀ x ∈ xs, ∀ y, R x y → y = x) : ys = xs := by
  induction h with
  | nil => rfl
  | cons hxy _ ih =>
    obtain ⟨hx, hxs⟩ := List.forall_mem_cons.1 hR
    rw [hx _ hxy, ih hxs]

section Lists

variable {α : Type} [JsonForm α] {xs : List α}

theorem readsOnlyAs_list (h : ∀ x ∈ xs, ReadsOnlyAs x) : ReadsOnlyAs xs where
  proper := proper_list fun x hx => (h x hx).proper
  only _ hys := eq_of_forall₂ (List.forall₂_map_left_iff.1 (option_mapM_eq_some.1 hys))
    fun x hx => (h x hx).only

theorem legible_of_mem (h : Legible xs) {x : α} (hx : x ∈ xs) : Legible x := by
  obtain ⟨j, hj⟩ := h
  obtain ⟨items, rfl⟩ : ∃ items, j = .array items := by
    cases j <;> first | exact ⟨_, rfl⟩ | cases hj
  obtain ⟨item, -, hitem⟩ := exists_mem_of_forall₂ (option_mapM_eq_some.1 hj).flip hx
  exact ⟨item, hitem⟩

end Lists

/-! ## Maps -/

namespace KeyMap

variable {k : IdKind} {α : Type}

/-- The map with the entries put into it one after the other. -/
def insertAll (m : KeyMap k α) (es : List (Id k × α)) : KeyMap k α :=
  es.foldl (fun m e => m.insert e.1 e.2) m

theorem insertEntry_of_lt {key : Id k} {a : α} {es : List (Id k × α)} (h : ∀ e ∈ es, e.1 < key) :
    insertEntry key a es = es ++ [(key, a)] := by
  induction es with
  | nil => rfl
  | cons e es ih =>
    obtain ⟨he, hes⟩ := List.forall_mem_cons.1 h
    have hlt : ¬key < e.1 := fun hlt => Id.lt_irrefl _ (Id.lt_trans he hlt)
    rw [insertEntry, if_neg hlt, if_neg (Id.ne_of_lt he).symm, ih hes, List.cons_append]

/-- Entries that follow those of the map in their order are put behind them. -/
theorem entries_insertAll {m : KeyMap k α} {es : List (Id k × α)}
    (h : (m.entries ++ es).Pairwise fun a b => a.1 < b.1) :
    (m.insertAll es).entries = m.entries ++ es := by
  induction es generalizing m with
  | nil => exact (List.append_nil _).symm
  | cons e es ih =>
    have hbefore : ∀ e' ∈ m.entries, e'.1 < e.1 := fun e' he' =>
      (List.pairwise_append.1 h).2.2 e' he' e List.mem_cons_self
    have hentries : (m.insert e.1 e.2).entries = m.entries ++ [e] := insertEntry_of_lt hbefore
    have happend : m.entries ++ e :: es = (m.insert e.1 e.2).entries ++ es := by
      rw [hentries, List.append_assoc, List.singleton_append]
    rw [happend] at h ⊢
    exact ih h

theorem insertAll_entries (m : KeyMap k α) : (∅ : KeyMap k α).insertAll m.entries = m :=
  ext_entries (entries_insertAll (m := ∅) m.sorted)

theorem mem_of_get?_insertAll {m : KeyMap k α} {es : List (Id k × α)} {key : Id k} {a : α}
    (h : (m.insertAll es).get? key = some a) : (key, a) ∈ es ∨ m.get? key = some a := by
  induction es generalizing m with
  | nil => exact .inr h
  | cons e es ih =>
    rcases ih h with hmem | hget
    · exact .inl (List.mem_cons_of_mem _ hmem)
    · rw [get?_insert] at hget
      split_ifs at hget with hkey
      · rw [← hkey, ← Option.some.inj hget]
        exact .inl List.mem_cons_self
      · exact .inr hget

variable [JsonForm α]

/-- Whether the member of an object tells the entry. -/
def Tells (member : String × Json) (e : Id k × α) : Prop :=
  e.1.text = member.1 ∧ JsonForm.ofJson? member.2 = some e.2

theorem foldlM_insert_eq_some {members : List (String × Json)} {m n : KeyMap k α} :
    members.foldlM (fun m e => do return m.insert ⟨e.1⟩ (← JsonForm.ofJson? e.2)) m = some n ↔
      ∃ es, List.Forall₂ Tells members es ∧ n = m.insertAll es := by
  induction members generalizing m with
  | nil => simp [insertAll, eq_comm]
  | cons e members ih =>
    rw [List.foldlM_cons]
    constructor
    · intro h
      obtain ⟨m', hm', h⟩ := Option.bind_eq_some_iff.1 h
      obtain ⟨a, ha, hm'⟩ := Option.bind_eq_some_iff.1 hm'
      obtain rfl := Option.some.inj hm'
      obtain ⟨es, hes, rfl⟩ := ih.1 h
      exact ⟨(⟨e.1⟩, a) :: es, .cons ⟨rfl, ha⟩ hes, rfl⟩
    · rintro ⟨_, hes, rfl⟩
      obtain ⟨⟨⟨_⟩, a⟩, es, ⟨rfl, ha⟩, hrest, rfl⟩ := List.forall₂_cons_left_iff.1 hes
      refine Option.bind_eq_some_iff.2 ⟨_, Option.bind_eq_some_iff.2 ⟨a, ha, rfl⟩, ?_⟩
      exact ih.2 ⟨es, hrest, rfl⟩

/-- A map is read by putting in what the members of an object tell, in their order. -/
theorem ofJson?_eq_some {j : Json} {m : KeyMap k α} : JsonForm.ofJson? j = some m ↔
    ∃ members named es, j = .object members ∧ Json.namedMembers? members = some named ∧
      List.Forall₂ Tells named es ∧ m = (∅ : KeyMap k α).insertAll es := by
  constructor
  · intro h
    cases j with
    | object members =>
      obtain ⟨named, hnamed, hfold⟩ := Option.bind_eq_some_iff.1 h
      obtain ⟨es, hes, hm⟩ := foldlM_insert_eq_some.1 hfold
      exact ⟨members, named, es, rfl, hnamed, hes, hm⟩
    | _ => cases h
  · rintro ⟨members, named, es, rfl, hnamed, hes, hm⟩
    exact Option.bind_eq_some_iff.2 ⟨named, hnamed, foldlM_insert_eq_some.2 ⟨es, hes, hm⟩⟩

end KeyMap

section Maps

variable {k : IdKind} {α : Type} [JsonForm α] {m : KeyMap k α}

theorem proper_keyMap (h : ∀ e ∈ m.entries, (toJson e.2).Proper) : (toJson m).Proper := by
  refine Json.proper_record fun member hmember => ?_
  obtain ⟨e, he, rfl⟩ := List.mem_map.1 hmember
  exact h e he

theorem readsAs_keyMap (h : ∀ e ∈ m.entries, ReadsAs e.2 e.2) : ReadsAs m m where
  proper := proper_keyMap fun e he => (h e he).proper
  read := by
    have htells : List.Forall₂ KeyMap.Tells
        (m.entries.map fun e => (e.1.text, toJson e.2)) m.entries :=
      List.forall₂_map_left_iff.2 (List.forall₂_same.2 fun e he => ⟨rfl, (h e he).read⟩)
    exact KeyMap.ofJson?_eq_some.2
      ⟨_, _, m.entries, rfl, Json.namedMembers?_map _, htells, m.insertAll_entries.symm⟩

theorem readsOnlyAs_keyMap (h : ∀ e ∈ m.entries, ReadsOnlyAs e.2) : ReadsOnlyAs m where
  proper := proper_keyMap fun e he => (h e he).proper
  only n hn := by
    obtain ⟨members, named, es, hobject, hnamed, hes, rfl⟩ := KeyMap.ofJson?_eq_some.1 hn
    obtain rfl := Json.object.inj hobject
    obtain rfl := Option.some.inj ((Json.namedMembers?_map _).symm.trans hnamed)
    have heq : es = m.entries := eq_of_forall₂ (List.forall₂_map_left_iff.1 hes)
      fun e he e' htells =>
        Prod.ext (congrArg Id.mk htells.1) ((h e he).only _ htells.2)
    rw [heq, m.insertAll_entries]

theorem legible_of_get? (h : Legible m) {key : Id k} {a : α} (ha : m.get? key = some a) :
    Legible a := by
  obtain ⟨j, hj⟩ := h
  obtain ⟨members, named, es, -, -, hes, rfl⟩ := KeyMap.ofJson?_eq_some.1 hj
  rcases KeyMap.mem_of_get?_insertAll ha with hmem | hget
  · obtain ⟨member, -, htells⟩ := exists_mem_of_forall₂ hes.flip hmem
    exact ⟨member.2, htells.2⟩
  · cases hget

end Maps

/-! ## Facets -/

namespace FacetValue

/-- The members of the object of a bucket. -/
def members (b : FacetValue) : List (String × Json) :=
  [("value", toJson b.value), ("count", toJson b.count)]

theorem record?_toJson (b : FacetValue) :
    (toJson b).record? (.ofFields ["value", "count"]) = some ⟨b.members⟩ :=
  Json.record?_record rfl (by decide)

theorem proper (b : FacetValue) : (toJson b).Proper := by
  have hvalue := (readsAs_option b.value).proper
  have hcount := (readsOnlyAs_nat b.count).proper
  exact Json.proper_record (by simp [hvalue, hcount])

theorem optionalField_value (b : FacetValue) :
    Record.optionalField ⟨b.members⟩ "value" = some b.value :=
  Record.optionalField_of_get? rfl (readsAs_option b.value)

theorem ofJson?_eq_some {j : Json} {b : FacetValue} : JsonForm.ofJson? j = some b ↔
    ∃ r, j.record? (.ofFields ["value", "count"]) = some r ∧
      r.optionalField "value" = some b.value ∧ r.field "count" = some b.count := by
  constructor
  · intro h
    obtain ⟨r, hr, h⟩ := Option.bind_eq_some_iff.1 h
    obtain ⟨v, hv, h⟩ := Option.bind_eq_some_iff.1 h
    obtain ⟨n, hn, h⟩ := Option.bind_eq_some_iff.1 h
    obtain rfl := Option.some.inj h
    exact ⟨r, hr, hv, hn⟩
  · rintro ⟨r, hr, hv, hn⟩
    refine Option.bind_eq_some_iff.2 ⟨r, hr, Option.bind_eq_some_iff.2 ⟨_, hv, ?_⟩⟩
    exact Option.bind_eq_some_iff.2 ⟨_, hn, rfl⟩

theorem readsAs {b : FacetValue} (h : b.count < 2 ^ 64) : ReadsAs b b where
  proper := b.proper
  read := ofJson?_eq_some.2 ⟨_, b.record?_toJson, b.optionalField_value,
    Record.field_of_get? rfl (readsAs_nat h)⟩

theorem readsOnlyAs (b : FacetValue) : ReadsOnlyAs b where
  proper := b.proper
  only b' h := by
    obtain ⟨r, hr, hvalue, hcount⟩ := ofJson?_eq_some.1 h
    obtain rfl := Option.some.inj (b.record?_toJson.symm.trans hr)
    have hv : b'.value = b.value := Option.some.inj (hvalue.symm.trans b.optionalField_value)
    have hn : b'.count = b.count := Record.eq_of_field rfl (readsOnlyAs_nat b.count) hcount
    cases b
    cases b'
    simp_all

theorem count_lt_of_legible {b : FacetValue} (h : Legible b) : b.count < 2 ^ 64 := by
  obtain ⟨j, hj⟩ := h
  obtain ⟨r, -, -, hcount⟩ := ofJson?_eq_some.1 hj
  exact lt_of_legible_nat (Record.legible_of_field hcount)

end FacetValue

namespace FacetCounts

/-- Whether all counts fit into 64 bits. -/
def Fits (c : FacetCounts) : Prop := ∀ b ∈ c.buckets, b.count < 2 ^ 64

theorem record?_toJson (c : FacetCounts) :
    (toJson c).record? (.ofFields ["buckets"]) = some ⟨[("buckets", toJson c.buckets)]⟩ :=
  Json.record?_record rfl (by decide)

theorem proper (c : FacetCounts) : (toJson c).Proper := by
  have hbuckets := proper_list fun (b : FacetValue) (_ : b ∈ c.buckets) => b.proper
  exact Json.proper_record (by simp [hbuckets])

theorem ofJson?_eq_some {j : Json} {c : FacetCounts} : JsonForm.ofJson? j = some c ↔
    ∃ r, j.record? (.ofFields ["buckets"]) = some r ∧ r.field "buckets" = some c.buckets := by
  constructor
  · intro h
    obtain ⟨r, hr, h⟩ := Option.bind_eq_some_iff.1 h
    obtain ⟨bs, hbs, h⟩ := Option.bind_eq_some_iff.1 h
    obtain rfl := Option.some.inj h
    exact ⟨r, hr, hbs⟩
  · rintro ⟨r, hr, hbs⟩
    exact Option.bind_eq_some_iff.2 ⟨r, hr, Option.bind_eq_some_iff.2 ⟨_, hbs, rfl⟩⟩

theorem readsOnlyAs (c : FacetCounts) : ReadsOnlyAs c where
  proper := c.proper
  only c' h := by
    obtain ⟨r, hr, hbuckets⟩ := ofJson?_eq_some.1 h
    obtain rfl := Option.some.inj (c.record?_toJson.symm.trans hr)
    exact congrArg mk (Record.eq_of_field rfl (readsOnlyAs_list fun b _ => b.readsOnlyAs) hbuckets)

theorem readsAs {c : FacetCounts} (h : c.Fits) : ReadsAs c c where
  proper := c.proper
  read := ofJson?_eq_some.2 ⟨_, c.record?_toJson,
    Record.field_of_get? rfl (readsAs_list fun b hb => FacetValue.readsAs (h b hb))⟩

/-- A facet can be read if and only if its counts fit into 64 bits: nothing is asked of the order
of its buckets or of their values. -/
theorem legible_iff {c : FacetCounts} : Legible c ↔ c.Fits := by
  refine ⟨?_, fun h => (readsAs h).legible⟩
  rintro ⟨j, hj⟩ b hb
  obtain ⟨r, -, hbuckets⟩ := ofJson?_eq_some.1 hj
  exact FacetValue.count_lt_of_legible (legible_of_mem (Record.legible_of_field hbuckets) hb)

end FacetCounts

/-! ## Results of a search -/

namespace SearchResult

/-- The members of the object of a result. -/
def members (s : SearchResult) : List (String × Json) :=
  [("total", toJson s.total), ("hits", toJson s.hits), ("facets", toJson s.facets)]

theorem record?_toJson (s : SearchResult) :
    (toJson s).record? (.ofFields ["total", "hits", "facets"]) = some ⟨s.members⟩ :=
  Json.record?_record rfl (by decide)

theorem proper (s : SearchResult) : (toJson s).Proper := by
  have hhit (d : IssueDoc) : (toJson d).Proper := by
    refine IssueFields.proper_json ?_
    rcases d.effortToFix with _ | x
    · exact readsAs_none.proper
    · exact proper_binary64 x
  have htotal := (readsOnlyAs_nat s.total).proper
  have hhits := proper_list fun d (_ : d ∈ s.hits) => hhit d
  have hfacets := proper_keyMap fun e (_ : e ∈ s.facets.entries) => e.2.proper
  exact Json.proper_record (by simp [htotal, hhits, hfacets])

theorem ofJson?_eq_some {j : Json} {s : SearchResult} : JsonForm.ofJson? j = some s ↔
    ∃ r, j.record? (.ofFields ["total", "hits", "facets"]) = some r ∧
      r.field "total" = some s.total ∧ r.field "hits" = some s.hits ∧
      r.field "facets" = some s.facets := by
  constructor
  · intro h
    obtain ⟨r, hr, h⟩ := Option.bind_eq_some_iff.1 h
    obtain ⟨total, htotal, h⟩ := Option.bind_eq_some_iff.1 h
    obtain ⟨hits, hhits, h⟩ := Option.bind_eq_some_iff.1 h
    obtain ⟨facets, hfacets, h⟩ := Option.bind_eq_some_iff.1 h
    obtain rfl := Option.some.inj h
    exact ⟨r, hr, htotal, hhits, hfacets⟩
  · rintro ⟨r, hr, htotal, hhits, hfacets⟩
    refine Option.bind_eq_some_iff.2 ⟨r, hr, Option.bind_eq_some_iff.2 ⟨_, htotal, ?_⟩⟩
    exact Option.bind_eq_some_iff.2 ⟨_, hhits, Option.bind_eq_some_iff.2 ⟨_, hfacets, rfl⟩⟩

/-- What is read from a result that was written has its facets.  Its hits may have other efforts. -/
theorem facets_of_reread {s s' : SearchResult} (h : ofJsonText? (jsonText s) = some s') :
    s'.facets = s.facets := by
  rw [ofJsonText?, jsonText, Json.parse?_print s.proper, Option.bind_some] at h
  obtain ⟨r, hr, -, -, hfacets⟩ := ofJson?_eq_some.1 h
  obtain rfl := Option.some.inj (s.record?_toJson.symm.trans hr)
  exact Record.eq_of_field rfl (readsOnlyAs_keyMap fun e _ => e.2.readsOnlyAs) hfacets

/-- A result is read as it is written if its total, its hits and its facets are. -/
theorem readsAs {s : SearchResult} (htotal : s.total < 2 ^ 64) (hhits : ∀ d ∈ s.hits, ReadsAs d d)
    (hfacets : ∀ e ∈ s.facets.entries, e.2.Fits) : ReadsAs s s where
  proper := s.proper
  read := ofJson?_eq_some.2 ⟨_, s.record?_toJson,
    Record.field_of_get? rfl (readsAs_nat htotal), Record.field_of_get? rfl (readsAs_list hhits),
    Record.field_of_get? rfl (readsAs_keyMap fun e he => FacetCounts.readsAs (hfacets e he))⟩

theorem fits_of_legible {s : SearchResult} (h : Legible s) {name : Id .facet} {c : FacetCounts}
    (hc : s.facets.get? name = some c) : c.Fits := by
  obtain ⟨j, hj⟩ := h
  obtain ⟨r, -, -, -, hfacets⟩ := ofJson?_eq_some.1 hj
  exact FacetCounts.legible_iff.1 (legible_of_get? (Record.legible_of_field hfacets) hc)

end SearchResult

end Triage
