import Triage.Proofs.Service.Exits

/-!
# Runs with any source of keys

The service draws its fresh keys from outside, and nothing is to depend on which ones it gets.  The
undisturbed run of a script is defined for every source of keys; with the source that counts up it
is the run by itself.
-/

namespace Triage

variable {keys : Nat → IssueKey} {w : World} {α β : Type}

namespace World

/-- The undisturbed answer to a step if fresh keys come from `keys`. -/
def performFrom (keys : Nat → IssueKey) (w : World) : (c : Call) → c.Answer × World
  | .freshKey => (keys w.keysDrawn, { w with keysDrawn := w.keysDrawn + 1 })
  | c => w.perform c

theorem performFrom_nthKey (w : World) (c : Call) : w.performFrom nthKey c = w.perform c := by
  cases c <;> rfl

/-- The dialogue of a world that answers every call and has its fresh keys from `keys`. -/
def supplied (keys : Nat → IssueKey) : Dialogue World where
  permits _ _ := True
  answers w c r w' := w.performFrom keys c = (r, w')

theorem supplied_nthKey : supplied nthKey = undisturbed := by
  simp only [supplied, undisturbed, performFrom_nthKey]

end World

open World

namespace Script

/-- The undisturbed run of a script by itself if fresh keys come from `keys`. -/
def runSupplied (keys : Nat → IssueKey) (w : World) : Script α → α × World
  | .done a => (a, w)
  | .ask c next => (next (w.performFrom keys c).1).runSupplied keys (w.performFrom keys c).2

theorem Attains.runSupplied {x : Script α} {Q : α → World → Prop}
    (h : x.Attains (supplied keys) Q w) :
    Q (x.runSupplied keys w).1 (x.runSupplied keys w).2 := by
  induction x generalizing w with
  | done a => exact h
  | ask c next ih => exact ih _ (h.2 _ _ rfl)

/-- With the source that counts up, the run is the one without failures. -/
theorem run_eq_runSupplied (x : Script α) (w : World) :
    x.run w [] = (.returned (x.runSupplied nthKey w).1, (x.runSupplied nthKey w).2) := by
  suffices h : ∀ held, x.runFrom w held [] =
      (.returned (x.runSupplied nthKey w).1, (x.runSupplied nthKey w).2) from h []
  induction x generalizing w with
  | done a => exact fun _ => rfl
  | ask c next ih =>
    intro held
    have hrespond : w.respond none c = (some (w.perform c).1, (w.perform c).2) := rfl
    rw [runFrom, List.head?_nil, Option.getD_none, hrespond, runSupplied, performFrom_nthKey]
    exact ih _ _ _

end Script

/-! ## Steps -/

theorem supplied_settled {c : Call} {Q : c.Answer → World → Prop}
    (h : Q (w.performFrom keys c).1 (w.performFrom keys c).2) :
    (supplied keys).permits w c ∧ ∀ r w', (supplied keys).answers w c r w' → Q r w' := by
  refine ⟨trivial, ?_⟩
  rintro r w' hr
  obtain ⟨rfl, rfl⟩ := Prod.mk.inj hr
  exact h

namespace Attempt

theorem attains_catalog_supplied {c : CatalogCall} {Q : Except ServiceError c.Answer → World → Prop}
    (h : Q (.ok (w.catalog.answer c)) w) : (catalog c).Attains (supplied keys) Q w :=
  attains_catalog.2 (supplied_settled h)

theorem attains_authorize_supplied {p : Principal} {op : Operation} {project : ProjectKey}
    {Q : Except ServiceError Unit → World → Prop}
    (hok : w.gate.permits p op project = true → Q (.ok ()) w)
    (herr : w.gate.permits p op project = false → Q (.error .forbidden) w) :
    (authorize p op project).Attains (supplied keys) Q w := by
  refine attains_authorize.2 (supplied_settled ?_)
  change Q (if w.gate.permits p op project = true then .ok () else .error .forbidden) w
  split_ifs with h
  · exact hok h
  · exact herr (Bool.eq_false_iff.2 h)

theorem attains_freshKey_supplied {Q : Except ServiceError IssueKey → World → Prop}
    (h : Q (.ok (keys w.keysDrawn)) { w with keysDrawn := w.keysDrawn + 1 }) :
    freshKey.Attains (supplied keys) Q w :=
  attains_freshKey.2 (supplied_settled h)

theorem attains_store_supplied {c : StoreCall} {Q : Except ServiceError c.Answer → World → Prop}
    (h : Q ((w.store.perform w.clock c).1.mapError .store)
      { w with store := (w.store.perform w.clock c).2 }) :
    (store c).Attains (supplied keys) Q w :=
  attains_store.2 (supplied_settled h)

end Attempt

namespace Service

open Attempt

theorem attains_indexRow_supplied {row : Issue} {Q : Except ServiceError IssueDoc → World → Prop}
    (h : Q (.ok row.doc) { w with index := w.index.put row.doc }) :
    (indexRow row).Attains (supplied keys) Q w := by
  refine attains_bind.2 (attains_index.2 (supplied_settled ?_))
  refine attains_bind.2 (attains_index.2 (supplied_settled (attains_found.2 ⟨fun d hd => ?_,
    fun hd => ?_⟩)))
  · obtain rfl : row.doc = d :=
      Option.some.inj ((Index.get?_put_self w.index row.doc).symm.trans hd)
    exact h
  · cases (Index.get?_put_self w.index row.doc).symm.trans hd

end Service

end Triage
