import Triage.Proofs.Search.Replacement
import Triage.Proofs.Service.Rebuild

/-!
# Aggregates after a write

A change of an issue, and a manual issue, put one document into the index.  Where the index mirrors
the store this is in place of the document of the old row, or of none, so that facets, totals and
hits follow the write exactly.
-/

namespace Triage

namespace World

variable {w : World} {key : IssueKey} {d : IssueDoc}

/-- A document in sync stands under its own key. -/
theorem InSync.key_eq (h : w.InSync key) (hd : w.index.get? key = some d) : d.key = key := by
  rcases h with ⟨i, hi, hdoc, -⟩ | ⟨-, hnone⟩
  · rw [hdoc] at hd
    exact Option.some.inj hd ▸ hi
  · rw [hnone] at hd
    cases hd

theorem keyed_index_of_inSync (h : ∀ key, w.InSync key) : w.index.Keyed :=
  fun key _ hd => (h key).key_eq hd

theorem InSync.get?_of_not_hasRow (h : w.InSync key) (hrow : ¬w.store.HasRow key) :
    w.index.get? key = none :=
  h.elim (fun hm => absurd hm.hasRow hrow) And.right

/-- The document of a row, put into an index that mirrors the store. -/
theorem follows_of_put (hsync : ∀ key, w.InSync key) {w' : World} {row : Issue}
    (h : w'.index = w.index.put row.doc) : w'.index.get? row.key = some row.doc ∧
      w.index.Follows w'.index (w.index.get? row.key) row.doc := by
  rw [h]
  exact ⟨Index.get?_put_self w.index row.doc,
    Index.follows_put (keyed_index_of_inSync hsync) row.doc⟩

end World

namespace Service

variable {limits : ServiceLimits} {principal : Principal} {q : ManualIssueRequest} {w w' : World}

theorem IssueCall.Ends.created {d : IssueDoc}
    (h : (IssueCall.create principal q).Ends limits w (.ok d) w') :
    ∃ row, StoredIssue principal q w row w'.store ∧ d = row.doc ∧
      w'.index = w.index.put row.doc := by
  obtain ⟨row, hrow, hd, hindex⟩ := h.exit.of_ok
  exact ⟨row, Raises.stored hrow, hd, hindex⟩

/-- From every world that can be reached in which the index mirrors the store, whatever is refused
on the way: a successful change of an issue moves every count of every facet, every total and every
unpaged search from the document that the issue had to the one that it has then, and a successful
creation adds those of its document to them. -/
theorem aggregates_follow_writes (limits : ServiceLimits) (hw : w.Reachable)
    (hsync : ∀ key, w.InSync key) (principal : Principal) (fs : List (Option Refusal))
    (new : IssueDoc) (w' : World) :
    (∀ key m, (mutate limits principal key m).run w (refusals fs) = (.returned (.ok new), w') →
      ∃ old, w.index.get? key = some old ∧ new.key = key ∧ w'.index.get? key = some new ∧
        w.index.Follows w'.index (some old) new) ∧
    ∀ q, (create limits principal q).run w (refusals fs) = (.returned (.ok new), w') →
      w.index.get? new.key = none ∧ w'.index.get? new.key = some new ∧
        w.index.Follows w'.index none new := by
  refine ⟨fun key m hrun => ?_, fun q hrun => ?_⟩
  · have hends : (IssueCall.change principal key m).Ends limits w (.ok new) w' :=
      ((IssueCall.change principal key m).attains_script limits w).of_run hrun
    obtain ⟨_, row, hs, rfl, hindex⟩ := hends.changed hw.keyed
    obtain ⟨i, -, hold, -⟩ := (hsync key).mirrors hs.hasRow
    obtain ⟨hnew, hfollows⟩ := World.follows_of_put hsync hindex
    rw [hs.key_eq] at hnew
    rw [hs.key_eq, hold] at hfollows
    exact ⟨i.doc, hold, hs.key_eq, hnew, hfollows⟩
  · have hends : (IssueCall.create principal q).Ends limits w (.ok new) w' :=
      ((IssueCall.create principal q).attains_script limits w).of_run hrun
    obtain ⟨row, hs, rfl, hindex⟩ := hends.created
    have hnone := (hsync row.key).get?_of_not_hasRow hs.fresh
    obtain ⟨hnew, hfollows⟩ := World.follows_of_put hsync hindex
    exact ⟨hnone, hnew, hnone ▸ hfollows⟩

/-- The sample world with an issue and its document. -/
def sampleMirrored : World :=
  { World.sample with
    store := .memory (({} : MemoryStore).put (sampleIssue "a"))
    index := ({} : Index).put (sampleIssue "a").doc }

theorem inSync_sampleMirrored (key : IssueKey) : sampleMirrored.InSync key := by
  by_cases hkey : ⟨"a"⟩ = key
  · subst hkey
    exact .inl ⟨sampleIssue "a", rfl, rfl, .issue (sampleIssue "a"), rfl, .inl rfl⟩
  · refine .inr ⟨Store.not_hasRow_iff.2 ?_, (Index.get?_put _ _ _).trans (if_neg hkey)⟩
    exact Option.map_eq_none_iff.2 (KeyMap.get?_insert_of_ne _ hkey _)

/-- An issue gets another severity, and another issue is raised. -/
theorem aggregates_follow_writes_sample : sampleMirrored.Reachable ∧
    (∃ new w', (mutate {} ⟨⟨"gandalf"⟩, []⟩ ⟨"a"⟩ (.setSeverity .blocker)).run sampleMirrored
        (refusals []) = (.returned (.ok new), w') ∧
      ((w'.index.facet {} .severities).countOf (some "MAJOR") : Int) =
        (sampleMirrored.index.facet {} .severities).countOf (some "MAJOR") - (1 : Nat) + (0 : Nat) ∧
      ((w'.index.facet {} .severities).countOf (some "BLOCKER") : Int) =
        (sampleMirrored.index.facet {} .severities).countOf (some "BLOCKER") - (0 : Nat) +
          (1 : Nat)) ∧
    ∃ new w', (sampleCreation.script {}).run sampleMirrored (refusals []) =
        (.returned (.ok new), w') ∧
      ∀ r, ((w'.index.search r).total : Int) =
        (sampleMirrored.index.search r).total - (0 : Nat) + (r.query.accepts new).toNat := by
  have hreachable : sampleMirrored.Reachable :=
    .turn (.respond (.start World.not_hasRow_sample) none (.store (.insert [sampleIssue "a"]))) rfl
  obtain ⟨new, w', hrun, hmajor, hblocker⟩ : ∃ new w', (mutate {} ⟨⟨"gandalf"⟩, []⟩ ⟨"a"⟩
      (.setSeverity .blocker)).run sampleMirrored (refusals []) = (.returned (.ok new), w') ∧
      IssueQuery.share {} .severities (some "MAJOR") new = 0 ∧
      IssueQuery.share {} .severities (some "BLOCKER") new = 1 := ⟨_, _, rfl, rfl, rfl⟩
  obtain ⟨raised, w₂, hcreate⟩ : ∃ new w', (create {} ⟨⟨"gandalf"⟩, []⟩
      { componentKey := ⟨"sample"⟩, ruleKey := ⟨"manual:manualRuleKey"⟩ }).run sampleMirrored
        (refusals []) = (.returned (.ok new), w') := ⟨_, _, rfl⟩
  obtain ⟨old, hold, -, -, hfollows⟩ :=
    (aggregates_follow_writes {} hreachable inSync_sampleMirrored _ _ _ _).1 _ _ hrun
  obtain ⟨-, -, hadds⟩ :=
    (aggregates_follow_writes {} hreachable inSync_sampleMirrored _ _ _ _).2 _ hcreate
  obtain rfl : (sampleIssue "a").doc = old := Option.some.inj hold
  refine ⟨hreachable, ⟨new, w', hrun, ?_, ?_⟩, raised, w₂, hcreate, hadds.total⟩
  · rw [← hmajor]
    exact hfollows.countOf {} .severities (some "MAJOR")
  · rw [← hblocker]
    exact hfollows.countOf {} .severities (some "BLOCKER")

end Service

end Triage
