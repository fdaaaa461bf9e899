import Triage.Proofs.Issue.Difference
import Triage.Proofs.Service.Safekeeping
import Triage.Proofs.Tags

/-!
# What a change records

A change of an issue is stored with the differences between the row that lies there and the row that
takes its place, whatever other calls do meanwhile.  So each tracked field that the two rows differ
in gets an entry in the changelog, and no other field does.  Tags differ in their words: a row whose
tags were put straight into the store may be given other tags of the same words, and no entry tells
of it.  Where all that is put straight into the store has tags without spaces, a field gets an entry
just if its value changes.
-/

namespace Triage

/-- The stamps of a row matter to no tracked field. -/
theorem Issue.diffs_updated (i j : Issue) (createdAt previous now : Timestamp) :
    i.diffs (j.updated createdAt previous now) = i.diffs j := by
  refine List.filterMap_congr fun f _ => ?_
  cases f <;> rfl

namespace Service

/-- Tags without spaces stay so: those that a call sets have none. -/
theorem lasting_spaceless : Lasting fun i => i.tags.Spaceless where
  raised _ _ _ _ _ := nofun
  changed h hi := by
    rcases Mutation.tags_of_changed h with htags | htags
    · rwa [htags]
    · exact htags.valid.spaceless
  stamped _ _ hi := hi
  measured _ hi := hi

/-- What a change of the row `old` for a caller does to a store at `now`: the changed row takes its
place, and the differences of the two are filed if there are any. -/
structure Recorded (limits : ServiceLimits) (principal : Principal) (m : Mutation) (now : Timestamp)
    (s s' : Store) (old row : Issue) : Prop where
  reads : s.Reads old
  changed : ∃ new, m.changed limits old = .ok new ∧
    row = new.updated old.createdAt old.updatedAt now
  writes : s.Writes s' [row]
  logs : s.Logs s' (if (old.diffs row).isEmpty then none
    else some ⟨old.key, principal.login, row.updatedAt, old.diffs row⟩)

namespace Recorded

variable {limits : ServiceLimits} {principal : Principal} {m : Mutation} {now : Timestamp}
  {s s' : Store} {old row : Issue}

/-- Just the fields in which the rows differ get an entry, in one change at the end of the
changelog. -/
theorem filed_iff (h : Recorded limits principal m now s s' old row) (f : TrackedField) :
    f.Differs old row ↔
      (∃ e : Entry, e.Holds ⟨old.key, principal.login, row.updatedAt, old.diffs row⟩ ∧
        s'.entries old.key = s.entries old.key ++ [e]) ∧
      ⟨f.name, f.render old, f.render row⟩ ∈ old.diffs row := by
  constructor
  · intro hf
    have hmem : ⟨f.name, f.render old, f.render row⟩ ∈ old.diffs row :=
      Issue.mem_diffs_iff.2 ⟨f, hf, rfl⟩
    have hlogs := h.logs
    rw [if_neg (by simpa using List.ne_nil_of_mem hmem)] at hlogs
    exact ⟨hlogs.filed _ rfl, hmem⟩
  · rintro ⟨-, hmem⟩
    exact Issue.exists_mem_diffs_iff.1 ⟨_, hmem, rfl⟩

theorem spaceless (h : Recorded limits principal m now s s' old row) (hold : old.tags.Spaceless) :
    row.tags.Spaceless := by
  obtain ⟨new, hchanged, rfl⟩ := h.changed
  exact lasting_spaceless.stamped _ _ (lasting_spaceless.changed hchanged hold)

/-- Where the rows differ in no field, the changelogs stay as they are. -/
theorem silent (h : Recorded limits principal m now s s' old row)
    (hf : ∀ f : TrackedField, ¬f.Differs old row) (key : IssueKey) :
    s'.entries key = s.entries key := by
  have hlogs := h.logs
  rw [Issue.diffs_eq_nil_iff.2 hf] at hlogs
  exact hlogs.others key (by simp)

end Recorded

open World Shift

variable {ι : Type} [DecidableEq ι] {w : World} {calls : ι → AnyCall} {b : Shift ι} {i : ι}

/-- A row that a call stores is a change of the row that lies there, recorded with it. -/
theorem Shift.Safe.recorded {limits : ServiceLimits} (h : b.Safe limits calls) {new row : Issue}
    {user : Login} {diffs : List FieldDiff} {f : Option Failure}
    (hnext : (b.calls i).next? = some (.store (.updateWithChange new user diffs)))
    (hr : (b.world.respond f (.store (.updateWithChange new user diffs))).1 = some (.ok row)) :
    ∃ principal m old, calls i = .writing (.issue (.change principal new.key m)) ∧
      b.world.read (.selectByKey new.key) = .ok (some old) ∧ diffs = old.diffs row ∧
      Recorded limits principal m b.world.clock b.world.store (b.turn (.step i f)).world.store old
        row := by
  obtain ⟨s, hc, hsound⟩ := h.permits hnext
  obtain ⟨old, principal, m, rfl, hcall, hchanged, rfl, rfl⟩ := hc
  have hreads := hsound.read old rfl
  have hkey : new.key = old.key := Mutation.key_of_changed_eq_ok hchanged
  -- the answer is that of the store, and the turn ends in the store that goes with it
  have hstored : b.world.store.perform b.world.clock
      (.updateWithChange new principal.login (old.diffs new)) =
        (.ok row, (b.turn (.step i f)).world.store) := by
    rw [world_turn_of_answer (by rw [Activity.isWaiting, hnext]) hnext hr]
    rcases respond_of_not_insertion (c := .updateWithChange new principal.login (old.diffs new)) rfl
      b.world f with ⟨o, ho, hrefused⟩ | ho <;> rw [ho] at hr ⊢
    · obtain ⟨e, he⟩ := hrefused _ hr
      cases he
    · exact Prod.ext (Option.some.inj hr) rfl
  have hupd := Store.updates_of_updateWithChange hstored
  obtain ⟨cell, hcell, hread⟩ := hreads
  have hrow := hupd.row_eq cell old (hkey ▸ hcell) (.inr hread)
  have hdiffs : old.diffs row = old.diffs new := by rw [hrow, Issue.diffs_updated]
  have hlogs := hupd.logs
  rw [hupd.key_eq, hkey, ← hdiffs] at hlogs
  rw [hkey]
  exact ⟨principal, m, old, AnyCall.change?_eq_some hcall,
    Store.Reads.selectByKey ⟨cell, hcell, hread⟩ _, hdiffs.symm,
    ⟨⟨cell, hcell, hread⟩, ⟨new, hchanged, hrow⟩, hupd.writes, hlogs⟩⟩

/-- The differences of two issues have one entry at most of each tracked field, with its old and its
new text, and one just for the fields that they differ in; where no tag has a space in it, that is
for those whose values differ.  Whenever a call of the service changes a row, whatever others do and
however calls fail and break off, it is the row that lies there, and the differences from it are
filed with the change; they are those of the values if no tag with a space in it was put into the
store. -/
theorem changes_recorded (limits : ServiceLimits) (hw : Start w)
    (hfree : ∀ key, w.locks.isHeld key = false) (calls : ι → AnyCall) :
    (∀ before after : Issue,
      (before.diffs after).Pairwise (fun d d' => d.field ≠ d'.field) ∧
      (∀ d, d ∈ before.diffs after ↔ ∃ f : TrackedField, f.Differs before after ∧
        d = ⟨f.name, f.render before, f.render after⟩) ∧
      (∀ f : TrackedField, (∃ d ∈ before.diffs after, d.field = f.name) ↔ f.Differs before after) ∧
      (before.diffs after = [] ↔ ∀ f : TrackedField, ¬f.Differs before after) ∧
      (∀ f : TrackedField, f.Differs before after → ¬f.Agrees before after) ∧
      (∀ f : TrackedField, f ≠ .tags ∨ before.tags.Spaceless ∧ after.tags.Spaceless →
        (f.Differs before after ↔ ¬f.Agrees before after)) ∧
      (before.tags.Spaceless → after.tags.Spaceless →
        (before.diffs after = [] ↔ before.Tracks after))) ∧
    ∀ (ts : List (ShiftTurn ι)) (i : ι) (new row : Issue) (user : Login) (diffs : List FieldDiff)
      (f : Option Failure) (b : Shift ι), (Shift.start limits w calls).run ts = b →
      (b.calls i).next? = some (.store (.updateWithChange new user diffs)) →
      (b.world.respond f (.store (.updateWithChange new user diffs))).1 = some (.ok row) →
      ∃ principal m old, calls i = .writing (.issue (.change principal new.key m)) ∧
        b.world.read (.selectByKey new.key) = .ok (some old) ∧ diffs = old.diffs row ∧
        Recorded limits principal m b.world.clock b.world.store (b.turn (.step i f)).world.store old
          row ∧
        (∀ fld : TrackedField, fld.Differs old row ↔
          (∃ e : Entry, e.Holds ⟨old.key, principal.login, row.updatedAt, old.diffs row⟩ ∧
            (b.turn (.step i f)).world.store.entries old.key =
              b.world.store.entries old.key ++ [e]) ∧
          ⟨fld.name, fld.render old, fld.render row⟩ ∈ old.diffs row) ∧
        ((∀ fld : TrackedField, ¬fld.Differs old row) → ∀ key,
          (b.turn (.step i f)).world.store.entries key = b.world.store.entries key) ∧
        ((∀ issues, .ingest issues ∈ ts → ∀ j ∈ issues, j.tags.Spaceless) →
          ∀ fld : TrackedField, fld.Differs old row ↔ ¬fld.Agrees old row) := by
  refine ⟨fun before after => ?_, ?_⟩
  · refine ⟨Issue.pairwise_diffs before after, fun d => Issue.mem_diffs_iff,
      fun f => Issue.exists_mem_diffs_iff, Issue.diffs_eq_nil_iff,
      fun f => TrackedField.not_agrees_of_differs, fun f => ?_, Issue.diffs_eq_nil_iff_tracks⟩
    rintro (hf | ⟨hb, ha⟩)
    · exact TrackedField.differs_of_ne_tags hf
    · exact TrackedField.differs_iff hb ha
  · rintro ts i new row user diffs f b rfl hnext hr
    obtain ⟨principal, m, old, hcall, hread, hdiffs, hrecorded⟩ :=
      ((Shift.Safe.start hw hfree limits calls).run ts).recorded hnext hr
    refine ⟨principal, m, old, hcall, hread, hdiffs, hrecorded, hrecorded.filed_iff,
      hrecorded.silent, fun hts fld => ?_⟩
    have hlasts : ((Shift.start limits w calls).run ts).Lasts fun j => j.tags.Spaceless :=
      (Shift.Lasts.start lasting_spaceless hw limits calls).run lasting_spaceless hts
    have hold : old.tags.Spaceless := hlasts.world.of_read lasting_spaceless hread
    exact TrackedField.differs_iff hold (hrecorded.spaceless hold)

/-- An issue is put into the store with a tag of two words, and a call gives it a tag for each. -/
def sampleRetagging : Shift Unit :=
  (Shift.start {} World.sample fun _ =>
    .writing (.issue (.change ⟨⟨"gandalf"⟩, []⟩ ⟨"a"⟩ (.setTags [some "a", some "b"])))).run
    (.ingest [{ sampleIssue "a" with tags := .ofList ["a b"] }] ::
      List.replicate 4 (.step () none))

/-- The row is given other tags, and its changelog stays empty. -/
theorem changes_recorded_sample : Start World.sample ∧
    (∀ key, World.sample.locks.isHeld key = false) ∧
    ∃ (b : Shift Unit) (new row : Issue) (user : Login), sampleRetagging = b ∧
      (b.calls ()).next? = some (.store (.updateWithChange new user [])) ∧
      (b.world.respond none (.store (.updateWithChange new user []))).1 = some (.ok row) ∧
      ∃ old, b.world.read (.selectByKey new.key) = .ok (some old) ∧
        ¬TrackedField.tags.Agrees old row ∧
        ∀ key, (b.turn (.step () none)).world.store.entries key = b.world.store.entries key := by
  have hstart : Start World.sample := ⟨World.not_hasRow_sample, fun _ => rfl, fun _ => rfl⟩
  obtain ⟨new, row, user, hkey, hnext, hr, htags⟩ : ∃ (new row : Issue) (user : Login),
      new.key = ⟨"a"⟩ ∧
      (sampleRetagging.calls ()).next? = some (.store (.updateWithChange new user [])) ∧
      (sampleRetagging.world.respond none (.store (.updateWithChange new user []))).1 =
        some (.ok row) ∧ row.tags = .ofList ["a", "b"] :=
    ⟨_, _, _, rfl, rfl, rfl, rfl⟩
  obtain ⟨-, -, old, -, hread, hdiffs, -, -, hsilent, -⟩ :=
    (changes_recorded {} hstart (fun _ => rfl) _).2 _ () new row user [] none _ rfl hnext hr
  have hold : old.tags = .ofList ["a b"] := by
    rw [hkey] at hread
    exact congrArg (fun i : Issue => i.tags) (Option.some.inj (Except.ok.inj hread.symm))
  refine ⟨hstart, fun _ => rfl, _, new, row, user, rfl, hnext, hr, old, hread, ?_, ?_⟩
  · rw [TrackedField.Agrees, hold, htags]
    decide
  · exact hsilent (Issue.diffs_eq_nil_iff.1 hdiffs.symm)

end Service

end Triage
