import Triage.Proofs.Service.Recording

/-!
# Rows with normal tags

Once a call has set the tags of an issue, the tags of its row are normal for good: whoever changes
the row from then on keeps them or sets others that are normal.  The document that the call puts for
the row has normal tags as well, and so has every document that is put for it later, be it an
outdated one.
-/

namespace Triage

/-- Whether the row under the key has normal tags, and its document has them too or is an old
one. -/
structure World.Tagged (w : World) (max : Nat) (key : IssueKey) (old : IssueDoc → Prop) : Prop where
  row : ∃ row, w.store.Reads row ∧ row.key = key ∧ row.tags.IsNormal max
  doc : ∀ d, w.index.get? key = some d → d.tags.IsNormal max ∨ old d

theorem World.respond_put_of_ok {w : World} {d : IssueDoc} {f : Option Failure}
    (h : (w.respond f (.index (.put d))).1 = some (.ok ())) :
    (w.respond f (.index (.put d))).2 = (w.perform (.index (.put d))).2 := by
  rcases f with _ | f
  · rfl
  · cases f with
    | store | catalog | empty => rfl
    | index e => cases h
    | panic => cases h

namespace Service

open World Shift

variable {limits : ServiceLimits} {x : AnyCall} {s : Custody} {w w' : World} {key : IssueKey}
  {held : List IssueKey} {old : IssueDoc → Prop} {row : Issue}

/-! ## Steps -/

/-- A row that is held has the tags with which it is read. -/
theorem tags_of_holds {st : Store} (h : st.Holds row) {j : Issue} (hj : st.Reads j)
    (hkey : j.key = row.key) : j.tags = row.tags := by
  obtain ⟨effort, hreads, -⟩ := h.exists_reads
  rw [hj.unique hreads hkey]

/-- A row that a call vouches for has normal tags if the row under its key has them. -/
theorem isNormal_of_vouches {max : Nat} (hsound : s.Sound limits x w.store held)
    (h : w.Tagged max key old) (hv : s.Vouches x row) (hkey : row.key = key) :
    row.tags.IsNormal max := by
  obtain ⟨j, hj, rfl, htags⟩ := h.row
  cases s with
  | read row' =>
    obtain ⟨rfl, -⟩ := hv
    rwa [(hsound.read row' rfl).unique hj hkey]
  | written row' =>
    obtain rfl : row' = row := hv
    rwa [← tags_of_holds (hsound.written row' rfl).1 hj hkey.symm]
  | raised row' =>
    obtain ⟨rfl, -⟩ := hv
    obtain ⟨q, key, component, rule, reporter, now, rfl⟩ := hsound.raised row' rfl
    exact Tags.isNormal_empty max
  | idle | holding => exact hv.elim

/-- What a step may do leaves the tags normal. -/
theorem Custody.Acts.tagged (hacts : s.Acts limits x w w')
    (hsound : s.Sound limits x w.store held) (h : w.Tagged limits.maxTagsPerIssue key old) :
    w'.Tagged limits.maxTagsPerIssue key old := by
  obtain ⟨j, hj, hkey, htags⟩ := h.row
  have hrow (hcell : w'.store.cell? key = w.store.cell? key) :
      ∃ row, w'.store.Reads row ∧ row.key = key ∧ row.tags.IsNormal limits.maxTagsPerIssue :=
    ⟨j, (Store.reads_iff_of_cell?_eq (hkey ▸ hcell)).2 hj, hkey, htags⟩
  cases hacts with
  | quiet hs hx => exact ⟨hrow (by rw [hs]), hx ▸ h.doc⟩
  | inserts hins hx => exact ⟨hrow (hins.cell?_eq (hkey ▸ hj.hasRow)), hx ▸ h.doc⟩
  | removes hs hx =>
    refine ⟨hrow (by rw [hs]), fun d hd => h.doc d ?_⟩
    rw [hx, Index.get?_remove] at hd
    split_ifs at hd
    exact hd
  | puts hv hs hx =>
    refine ⟨hrow (by rw [hs]), fun d hd => ?_⟩
    rw [hx, Index.get?_put] at hd
    split_ifs at hd with hk
    · cases hd
      exact .inl (isNormal_of_vouches hsound h hv hk)
    · exact h.doc d hd
  | @updates _ _ old' new row hs _ hnew hupd hx =>
    refine ⟨?_, hx ▸ h.doc⟩
    by_cases hk : row.key = key
    · have hkeys : old'.key = j.key := by
        rw [hkey, ← hk, hupd.key_eq, Mutation.key_of_changed_eq_ok hnew]
      -- the row that is changed is the one with normal tags
      obtain rfl := (hsound.read old' hs).unique hj hkeys
      obtain ⟨cell, hcell, hread⟩ := hj
      have hchanged := hupd.row_eq cell old'
        (by rw [Mutation.key_of_changed_eq_ok hnew]; exact hcell) (.inr hread)
      obtain ⟨effort, hreads, -⟩ := (hupd.writes.holds row List.mem_cons_self).exists_reads
      refine ⟨_, hreads, hk, ?_⟩
      change row.tags.IsNormal _
      rw [hchanged]
      rcases Mutation.tags_of_changed hnew with hsame | hnormal
      · exact hsame.symm ▸ htags
      · exact hnormal
    · exact hrow (hupd.writes.others key (List.forall_mem_singleton.2 hk))

/-! ## Runs -/

variable {ι : Type} [DecidableEq ι] {calls : ι → AnyCall} {b : Shift ι} {i : ι}

theorem Shift.Safe.tagged_run (hsafe : b.Safe limits calls)
    (h : b.world.Tagged limits.maxTagsPerIssue key old) (ts : List (ShiftTurn ι)) :
    (b.run ts).world.Tagged limits.maxTagsPerIssue key old := by
  have hturn (b : Shift ι) (t : ShiftTurn ι)
      (h : b.Safe limits calls ∧ b.world.Tagged limits.maxTagsPerIssue key old) :
      (b.turn t).Safe limits calls ∧ (b.turn t).world.Tagged limits.maxTagsPerIssue key old := by
    obtain ⟨hsafe, htagged⟩ := h
    obtain ⟨x, s, held, hsound, hacts⟩ := hsafe.acts t
    exact ⟨hsafe.turn t, hacts.tagged hsound htagged⟩
  exact (run_keeps hturn ⟨hsafe, h⟩ ts).2

/-- A row that a call has given tags has those that its entries are made into, and from then on the
tags stay normal; a document for it may be as old as the change. -/
theorem Shift.Safe.tagged_of_change (h : b.Safe limits calls) {principal : Principal}
    {entries : List (Option String)}
    (hcall : calls i = .writing (.issue (.change principal key (.setTags entries))))
    {new row : Issue} {user : Login} {diffs : List FieldDiff} {f : Option Failure}
    (hnext : (b.calls i).next? = some (.store (.updateWithChange new user diffs)))
    (hr : (b.world.respond f (.store (.updateWithChange new user diffs))).1 = some (.ok row)) :
    Tags.normalize entries limits.maxTagsPerIssue = .ok row.tags ∧
      (b.turn (.step i f)).world.Tagged limits.maxTagsPerIssue key
        fun d => (b.turn (.step i f)).world.index.get? key = some d := by
  obtain ⟨principal', m, old, hcall', hread, -, hrecorded⟩ := h.recorded hnext hr
  obtain ⟨⟩ := hcall.symm.trans hcall'
  obtain ⟨new', hchanged, rfl⟩ := hrecorded.changed
  have htags := Mutation.normalize_of_changed hchanged
  obtain ⟨effort, hreads, -⟩ := (hrecorded.writes.holds _ List.mem_cons_self).exists_reads
  refine ⟨htags, ⟨_, hreads, ?_, Tags.isNormal_of_normalize htags⟩, fun d hd => .inr hd⟩
  calc new'.key
    _ = old.key := Mutation.key_of_changed_eq_ok hchanged
    _ = new.key := Store.key_of_selectByKey h.keyed hread

/-- A document that a call puts which gives an issue tags has normal tags, as its row has. -/
theorem Shift.Safe.tagged_of_put (h : b.Safe limits calls) {principal : Principal}
    {entries : List (Option String)}
    (hcall : calls i = .writing (.issue (.change principal key (.setTags entries))))
    {d : IssueDoc} {f : Option Failure} (hnext : (b.calls i).next? = some (.index (.put d)))
    (hr : (b.world.respond f (.index (.put d))).1 = some (.ok ())) :
    Tags.normalize entries limits.maxTagsPerIssue = .ok d.tags ∧
      (b.turn (.step i f)).world.Tagged limits.maxTagsPerIssue key fun _ => False := by
  obtain ⟨s, ⟨row, hv, rfl⟩, hsound⟩ := h.permits hnext
  obtain rfl : s = .written row := by
    cases s with
    | written row' => exact congrArg _ hv
    | read | raised => cases hv.2.symm.trans (congrArg AnyCall.change? hcall)
    | idle | holding => exact hv.elim
  obtain ⟨hholds, principal', m, old, new, createdAt, previous, now, hcall', hchanged, rfl⟩ :=
    hsound.written row rfl
  obtain ⟨⟩ := hcall.symm.trans (AnyCall.change?_eq_some hcall')
  have htags := Mutation.normalize_of_changed hchanged
  have hnormal := Tags.isNormal_of_normalize htags
  have hkey : new.key = old.key := Mutation.key_of_changed_eq_ok hchanged
  obtain ⟨effort, hreads, -⟩ := hholds.exists_reads
  rw [world_turn_of_answer (by rw [Activity.isWaiting, hnext]) hnext hr, respond_put_of_ok hr]
  refine ⟨htags, ⟨_, hreads, hkey, hnormal⟩, fun d hd => .inl ?_⟩
  have hput : d = (new.updated createdAt previous now).doc := by
    rw [← hkey] at hd
    exact Option.some.inj (hd.symm.trans (Index.get?_put_self _ _))
  rwa [hput]

/-! ## Normalization, from the entries to the rows -/

/-- What a list of entries is made into is told by the lower-case forms of the entries that are
there and not blank: the first entry whose form has white space is refused, then too many different
forms are, and else the result is the set of the forms.  A result is normal: its members are not
empty, have no white space and are made into the same set again.  And from the step on with which a
call stores the tags that it gives an issue, whatever others do and however calls fail and break
off, the tags of its row are normal, and so are those of each document that is put for it. -/
theorem tags_normalized (limits : ServiceLimits) (hw : Start w)
    (hfree : ∀ key, w.locks.isHeld key = false) (calls : ι → AnyCall) :
    (∀ (entries : List (Option String)) (max : Nat),
      (∀ t, Tags.normalize entries max = .error (.invalidFormat t) ↔
        (Tags.present entries).find? (fun t => Text.hasBlank (Text.lowercase t)) = some t) ∧
      (∀ m n, Tags.normalize entries max = .error (.tooMany m n) ↔ Tags.Clear entries ∧ m = max ∧
        n = ((Tags.present entries).map Text.lowercase).dedup.length ∧ max < n) ∧
      (∀ s, Tags.normalize entries max = .ok s ↔ Tags.Clear entries ∧
        ((Tags.present entries).map Text.lowercase).dedup.length ≤ max ∧
        ∀ x, x ∈ s.toList ↔ ∃ t ∈ Tags.present entries, Text.lowercase t = x) ∧
      (∀ entries', (∀ t, t ∈ Tags.present entries ↔ t ∈ Tags.present entries') →
        (∀ s, Tags.normalize entries max = .ok s ↔ Tags.normalize entries' max = .ok s) ∧
        ∀ m n, Tags.normalize entries max = .error (.tooMany m n) ↔
          Tags.normalize entries' max = .error (.tooMany m n)) ∧
      (∀ s, Tags.normalize entries max = .ok s → s.IsNormal max)) ∧
    (∀ (s : TextSet) (max : Nat), s.IsNormal max → s.size ≤ max ∧
      (∀ t ∈ s.toList, t ≠ "" ∧ Text.hasBlank t = false) ∧
      ∀ max', s.size ≤ max' → Tags.normalize (s.toList.map some) max' = .ok s) ∧
    ∀ (ts : List (ShiftTurn ι)) (i : ι) (principal : Principal) (key : IssueKey)
      (entries : List (Option String)) (f : Option Failure) (b : Shift ι),
      (Shift.start limits w calls).run ts = b →
      calls i = .writing (.issue (.change principal key (.setTags entries))) →
      (∀ (new row : Issue) (user : Login) (diffs : List FieldDiff),
        (b.calls i).next? = some (.store (.updateWithChange new user diffs)) →
        (b.world.respond f (.store (.updateWithChange new user diffs))).1 = some (.ok row) →
        Tags.normalize entries limits.maxTagsPerIssue = .ok row.tags ∧ ∀ ts',
          ((b.turn (.step i f)).run ts').world.Tagged limits.maxTagsPerIssue key
            fun d => (b.turn (.step i f)).world.index.get? key = some d) ∧
      ∀ d, (b.calls i).next? = some (.index (.put d)) →
        (b.world.respond f (.index (.put d))).1 = some (.ok ()) →
        Tags.normalize entries limits.maxTagsPerIssue = .ok d.tags ∧ ∀ ts',
          ((b.turn (.step i f)).run ts').world.Tagged limits.maxTagsPerIssue key
            fun _ => False := by
  refine ⟨fun entries max => ⟨fun t => Tags.normalize_eq_invalidFormat_iff, fun m n => ?_,
    fun s => ?_, fun entries' h => Tags.normalize_congr h max,
    fun s => Tags.isNormal_of_normalize⟩, fun s max h => ?_, ?_⟩
  · rw [Tags.normalize_eq_tooMany_iff, Tags.size_forms]
  · rw [Tags.normalize_eq_ok_iff, Tags.size_forms, Tags.eq_forms_iff]
  · exact ⟨h.size, fun t ht => Tags.isValid_iff.1 (h.valid t ht), fun max' hmax =>
      (h.mono hmax).normalize_eq⟩
  · rintro ts i principal key entries f b rfl hcall
    have hsafe := (Shift.Safe.start hw hfree limits calls).run ts
    refine ⟨fun new row user diffs hnext hr => ?_, fun d hnext hr => ?_⟩
    · obtain ⟨htags, htagged⟩ := hsafe.tagged_of_change hcall hnext hr
      exact ⟨htags, fun ts' => (hsafe.step i f).tagged_run htagged ts'⟩
    · obtain ⟨htags, htagged⟩ := hsafe.tagged_of_put hcall hnext hr
      exact ⟨htags, fun ts' => (hsafe.step i f).tagged_run htagged ts'⟩

/-- Steps of a call that gives tags to an issue which was put into the store with one that is not
normal. -/
def sampleTagging (n : Nat) : Shift Unit :=
  (Shift.start { maxTagsPerIssue := 2 } World.sample fun _ => .writing (.issue (.change
    ⟨⟨"gandalf"⟩, []⟩ ⟨"a"⟩ (.setTags [some "UI", none, some " ", some "bug", some "Bug"])))).run
    (.ingest [{ sampleIssue "a" with tags := .ofList ["Old Tag"] }] ::
      List.replicate n (.step () none))

/-- Once row and document are written, their tags are normal for good. -/
theorem tags_normalized_sample : Start World.sample ∧
    (∀ key, World.sample.locks.isHeld key = false) ∧
    ∃ (b b' : Shift Unit) (new row : Issue) (user : Login) (diffs : List FieldDiff) (d : IssueDoc),
      sampleTagging 4 = b ∧
      (b.calls ()).next? = some (.store (.updateWithChange new user diffs)) ∧
      (b.world.respond none (.store (.updateWithChange new user diffs))).1 = some (.ok row) ∧
      row.tags.toList = ["bug", "ui"] ∧ sampleTagging 5 = b' ∧
      (b'.calls ()).next? = some (.index (.put d)) ∧
      (b'.world.respond none (.index (.put d))).1 = some (.ok ()) ∧ d.tags = row.tags ∧
      ∀ ts', ((b'.turn (.step () none)).run ts').world.Tagged 2 ⟨"a"⟩ fun _ => False := by
  have hstart : Start World.sample := ⟨World.not_hasRow_sample, fun _ => rfl, fun _ => rfl⟩
  obtain ⟨new, row, user, diffs, d, hnext, hr, htags, hput, hok, hdoc⟩ :
      ∃ (new row : Issue) (user : Login) (diffs : List FieldDiff) (d : IssueDoc),
        ((sampleTagging 4).calls ()).next? = some (.store (.updateWithChange new user diffs)) ∧
        ((sampleTagging 4).world.respond none (.store (.updateWithChange new user diffs))).1 =
          some (.ok row) ∧
        row.tags.toList = ["bug", "ui"] ∧
        ((sampleTagging 5).calls ()).next? = some (.index (.put d)) ∧
        ((sampleTagging 5).world.respond none (.index (.put d))).1 = some (.ok ()) ∧
        d.tags = row.tags :=
    ⟨_, _, _, _, _, rfl, rfl, by decide +kernel, rfl, rfl, rfl⟩
  obtain ⟨-, -, hruns⟩ :=
    tags_normalized { maxTagsPerIssue := 2 } hstart (fun _ => rfl) fun _ : Unit => _
  obtain ⟨-, htagged⟩ := (hruns _ () _ _ _ none (sampleTagging 5) rfl rfl).2 d hput hok
  exact ⟨hstart, fun _ => rfl, _, _, new, row, user, diffs, d, rfl, hnext, hr, htags, rfl, hput,
    hok, hdoc, htagged⟩

end Service

end Triage
