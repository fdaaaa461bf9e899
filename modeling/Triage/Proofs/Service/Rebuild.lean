import Triage.Proofs.Service.Amid

/-!
# Rebuilding the index amid changes

Each key that the rebuilding visits is in sync from then on: others who change the issue later keep
it so.  A key that it does not visit had no row when the rows were listed and no document when the
documents were, and so is in sync as well.
-/

namespace Triage

namespace Service

open World Attempt

variable {α β : Type} {s s₁ s' : Course} {key : IssueKey}

/-! ## Steps and failures -/

/-- What an attempt has come to: the index amended, and either a value with no call failed or the
error of the one call that failed. -/
structure Came (P : α → Course → Prop) (s : Course) (r : Except ServiceError α) (s' : Course) :
    Prop where
  precedes : s.Precedes s'
  ok : ∀ a, r = .ok a → s'.failures = s.failures ∧ P a s'
  error : ∀ e, r = .error e → s'.failures = s.failures ++ [e]

theorem Came.after {P : α → Course → Prop} {r : Except ServiceError α} (h : Came P s₁ r s')
    (hs : s.Precedes s₁) (hf : s₁.failures = s.failures) : Came P s r s' :=
  ⟨hs.trans h.precedes, fun a ha => ⟨(h.ok a ha).1.trans hf, (h.ok a ha).2⟩,
    fun e he => (h.error e he).trans (by rw [hf])⟩

namespace Course

/-- The course after a step that left `w`. -/
def step (s : Course) (w : World) (c : Call) (r : c.Answer) : Course := ⟨w, s.trace ++ [.step c r]⟩

theorem precedes_step {w : World} (c : Call) (r : c.Answer) (hw : s.world.Amends w)
    (hs : w.store = s.world.store) : s.Precedes (s.step w c r) where
  amends := hw
  trace := List.prefix_append _ _
  standing := fun h key d hd => by
    rw [step, latest_append_step] at hd
    obtain ⟨hkey, hholds⟩ := h key d hd
    exact ⟨hkey, show w.store.Holds d.issue from hs ▸ hholds⟩

theorem failures_step (s : Course) (w : World) (c : Call) (r : c.Answer) :
    (s.step w c r).failures = s.failures ++ (Happening.step c r).error?.toList := by
  rw [failures, failures, step, List.filterMap_append]
  cases h : (Happening.step c r).error? <;> simp [h]

end Course

/-- What has come after a step that leaves the store as it is and amends the index. -/
theorem after_answer {c : Call} {r : c.Answer} (h : amid.answers s c r s') (hs : s.world.Sane) :
    ∃ w, s.world.Answers c r w ∧ (s.world.Amends w → w.store = s.world.store →
      w.Calm s'.world ∧ s.Precedes s' ∧
        s'.failures = s.failures ++ (Happening.step c r).error?.toList) := by
  obtain ⟨w, ha, -, hi⟩ := h
  refine ⟨w, ha, fun hw hstore => ?_⟩
  have hi : (s.step w c r).Interlude s' := hi (hw.sane hs)
  exact ⟨hi.calm, (Course.precedes_step c r hw hstore).trans hi.precedes,
    hi.failures.trans (Course.failures_step s w c r)⟩

theorem came_error {P : α → Course → Prop} {e : ServiceError} (hs : s.Precedes s')
    (hf : s'.failures = s.failures ++ [e]) : Came P s (.error e) s' :=
  ⟨hs, nofun, by rintro _ ⟨⟩; exact hf⟩

theorem came_ok {P : α → Course → Prop} {a : α} (hs : s.Precedes s')
    (hf : s'.failures = s.failures) (ha : P a s') : Came P s (.ok a) s' :=
  ⟨hs, by rintro _ ⟨⟩; exact ⟨hf, ha⟩, nofun⟩

theorem attains_bind_came {x : Attempt α} {f : α → Attempt β} {P : α → Course → Prop}
    {P' : β → Course → Prop} (hx : x.Attains amid (Came P s) s)
    (hf : ∀ a t, s.Precedes t → P a t → (f a).Attains amid (Came P' t) t) :
    (x >>= f).Attains amid (Came P' s) s := by
  refine attains_bind.2 (hx.mono fun r t h => ?_)
  cases r with
  | error e => exact came_error h.precedes (h.error e rfl)
  | ok a =>
    obtain ⟨hfail, ha⟩ := h.ok a rfl
    exact (hf a t h.precedes ha).mono fun r t' h' => h'.after h.precedes hfail

/-! ## One key -/

/-- The sync of one key, whose lock is held. -/
theorem attains_syncKey (hs : s.world.Sane) (hheld : s.world.locks.isHeld key = true) :
    (syncKey key).Attains amid (Came (fun present s' => s'.world.InSync key ∧
      (present = true ↔ s'.world.store.HasRow key)) s) s := by
  refine attains_bind.2 (attains_store.2 ⟨trivial, fun r s₁ h => ?_⟩)
  obtain ⟨w, ha, h⟩ := after_answer h hs
  obtain ⟨rfl, hr⟩ := ha.selectByKey
  obtain ⟨hcalm, hp, hf⟩ := h (.refl _) rfl
  cases r with
  | error e => exact came_error hp hf
  | ok o =>
    replace hf : s₁.failures = s.failures := hf.trans (List.append_nil _)
    have hsane := hp.amends.sane hs
    -- nobody else writes the row of the key while its lock is held
    have hcell := (hcalm.held key hheld).1
    rcases Store.selectByKey_eq_ok (hr o rfl) with ⟨rfl, hnone⟩ | ⟨c, row, rfl, hc, hread⟩
    · have hrow : ¬s₁.world.store.HasRow key := Store.not_hasRow_iff.2 (hcell.trans hnone)
      refine attains_bind.2 (attains_index.2 ⟨trivial, fun r s₂ h => ?_⟩)
      obtain ⟨w, ha, h⟩ := after_answer h hsane
      rcases ha.index with ⟨e, rfl, rfl⟩ | ⟨rfl, rfl⟩
      · obtain ⟨-, hp', hf'⟩ := h (.refl _) rfl
        exact (came_error hp' hf').after hp hf
      · obtain ⟨hcalm', hp', hf'⟩ := h (amends_remove hrow) rfl
        refine (came_ok hp' (hf'.trans (List.append_nil _)) ⟨?_, ?_⟩).after hp hf
        · exact hcalm'.inSync (inSync_remove hrow)
        · simpa using fun h => hrow ((hp'.amends.hasRow key).1 h)
    · have hkey := Store.key_of_read hs.keyed hc hread
      have hshows : s₁.world.store.Shows row :=
        ⟨c, by rw [hkey, hcell, hc], .inr (by rw [hkey]; exact hread)⟩
      refine attains_bind.2 (attains_index.2 ⟨trivial, fun r s₂ h => ?_⟩)
      obtain ⟨w, ha, h⟩ := after_answer h hsane
      rcases ha.index with ⟨e, rfl, rfl⟩ | ⟨rfl, rfl⟩
      · obtain ⟨-, hp', hf'⟩ := h (.refl _) rfl
        exact (came_error hp' hf').after hp hf
      · obtain ⟨hcalm', hp', hf'⟩ := h (amends_put hshows) rfl
        refine (came_ok hp' (hf'.trans (List.append_nil _)) ⟨?_, ?_⟩).after hp hf
        · rw [← hkey]
          exact hcalm'.inSync (.inl (mirrors_put hshows))
        · rw [hp'.amends.hasRow, ← hkey]
          simpa using hshows.hasRow

/-- Work under the lock of a key, in a world without poisoned locks. -/
theorem attains_locked_amid {body : Attempt α} {P : α → Course → Prop} (hs : s.world.Sane)
    (hP : ∀ a t t', t.Precedes t' → P a t → P a t')
    (hbody : ∀ t : Course, s.Precedes t → t.world.locks.isHeld key = true →
      body.Attains amid (Came P t) t) :
    Attempt.Attains amid (Came P s) (.mk (locked key (.error .lockPoisoned) body.run)) s := by
  refine Script.attains_bind.2 (Script.attains_single.2 ⟨trivial, fun entered s₁ h => ?_⟩)
  obtain ⟨w, ha, h⟩ := after_answer h hs
  obtain ⟨rfl, rfl⟩ := ha.enter
  have hunpoisoned := hs.unpoisoned key
  obtain ⟨hcalm, hp, hf⟩ := h (amends_locks (LockTable.isPoisoned_enter _ _)) rfl
  have hheld := (hcalm.isHeld key).trans (LockTable.isHeld_enter_self hunpoisoned)
  rw [LockTable.enter_fst, hunpoisoned]
  refine Script.attains_bind.2 ((hbody s₁ hp hheld).mono fun r s₂ hr => ?_)
  have hp₂ := hp.trans hr.precedes
  refine Script.attains_bind.2 (Script.attains_single.2 ⟨trivial, fun _ s₃ h => ?_⟩)
  obtain ⟨w, ha, h⟩ := after_answer h (hp₂.amends.sane hs)
  obtain rfl := ha.leave
  obtain ⟨-, hp₃, hf₃⟩ := h
    (amends_locks (LockTable.isPoisoned_leave ((hp₂.amends.sane hs).unpoisoned key))) rfl
  replace hf := hf.trans (List.append_nil _)
  replace hf₃ := hf₃.trans (List.append_nil _)
  refine ⟨hp₂.trans hp₃, fun a ha => ?_, fun e he => ?_⟩
  · exact ⟨hf₃.trans ((hr.ok a ha).1.trans hf), hP a _ _ hp₃ (hr.ok a ha).2⟩
  · rw [hf₃, hr.error e he, hf]

/-! ## All keys -/

/-- How many of the keys have a row. -/
def rowCount (w : World) (keys : List IssueKey) : Nat :=
  keys.countP fun key => (w.store.cell? key).isSome

theorem rowCount_cons (w : World) (key : IssueKey) (keys : List IssueKey) :
    rowCount w (key :: keys) = (if (w.store.cell? key).isSome then 1 else 0) + rowCount w keys := by
  rw [rowCount, List.countP_cons, Nat.add_comm]
  rfl

theorem rowCount_eq {w w' : World} (h : ∀ key, w'.store.HasRow key ↔ w.store.HasRow key)
    (keys : List IssueKey) : rowCount w' keys = rowCount w keys :=
  List.countP_congr fun key _ => h key

/-- The sync of one key with its lock entered and left. -/
theorem attains_locked_syncKey (hs : s.world.Sane) (key : IssueKey) :
    Attempt.Attains amid (Came (fun present s' => s'.world.InSync key ∧
      (present = true ↔ s'.world.store.HasRow key)) s)
      (.mk (locked key (.error .lockPoisoned) (syncKey key).run)) s := by
  refine attains_locked_amid hs ?_ fun t ht hheld => attains_syncKey (ht.amends.sane hs) hheld
  rintro present t t' ht ⟨hsync, hpresent⟩
  exact ⟨ht.amends.inSync hsync, hpresent.trans (ht.amends.hasRow key).symm⟩

theorem attains_syncKeys (hs : s.world.Sane) (keys : List IssueKey) :
    (syncKeys keys).Attains amid (Came (fun n s' => (∀ key ∈ keys, s'.world.InSync key) ∧
      n = rowCount s'.world keys) s) s := by
  induction keys generalizing s with
  | nil => exact came_ok (.refl s) rfl ⟨by simp, rfl⟩
  | cons key keys ih =>
    refine attains_bind_came (attains_locked_syncKey hs key) ?_
    rintro present t ht ⟨hsync, hpresent⟩
    refine attains_bind_came (ih (ht.amends.sane hs)) ?_
    rintro n t' ht' ⟨hsyncs, rfl⟩
    refine attains_pure.2 (came_ok (.refl t') rfl ⟨fun key' hk => ?_, ?_⟩)
    · rcases List.mem_cons.1 hk with rfl | hk
      · exact ht'.amends.inSync hsync
      · exact hsyncs key' hk
    · rw [rowCount_cons, ← show present = (t'.world.store.cell? key).isSome from
        Bool.eq_iff_iff.2 (hpresent.trans (ht'.amends.hasRow key).symm)]

theorem mem_keysToSync {rows : List Issue} {indexed : List IssueKey} :
    key ∈ keysToSync rows indexed ↔ key ∈ rows.map (·.key) ∨ key ∈ indexed := by
  have hfold (keys : List IssueKey) (m : KeyMap .issue Unit) :
      key ∈ (keys.foldl (fun m key => m.insert key ()) m).keys ↔ key ∈ m.keys ∨ key ∈ keys := by
    induction keys generalizing m with
    | nil => simp
    | cons k keys ih =>
      rw [List.foldl_cons, ih, KeyMap.mem_keys_iff, KeyMap.get?_insert, KeyMap.mem_keys_iff,
        List.mem_cons, eq_comm]
      split_ifs with hk
      · simp [hk]
      · simp [Ne.symm hk]
  rw [keysToSync, hfold, List.mem_append, or_iff_right (by simp [KeyMap.mem_keys_iff])]

theorem nodup_keysToSync (rows : List Issue) (indexed : List IssueKey) :
    (keysToSync rows indexed).Nodup :=
  KeyMap.nodup_keys _

/-- What a completed rebuilding has come to: every key in sync, and the count of those that were
listed in store or index and have a row. -/
def Rebuilt (n : Nat) (s : Course) : Prop :=
  (∀ key, s.world.InSync key) ∧ ∃ rows indexed,
    .step (.store .selectAll) (.ok rows) ∈ s.trace ∧ .step (.index .keys) (.ok indexed) ∈ s.trace ∧
    n = rowCount s.world (keysToSync rows indexed)

theorem attains_selectAll (hs : s.world.Sane) :
    (Attempt.store .selectAll).Attains amid (Came (fun rows s' =>
      .step (.store .selectAll) (.ok rows) ∈ s'.trace ∧
      ∀ key, key ∈ rows.map (·.key) ↔ s'.world.store.HasRow key) s) s := by
  refine attains_store.2 ⟨trivial, fun r s₁ h => ?_⟩
  have ⟨_, _, hmem, _⟩ := h
  obtain ⟨w, ha, h⟩ := after_answer h hs
  obtain ⟨rfl, hr⟩ := ha.selectAll
  obtain ⟨-, hp, hf⟩ := h (.refl _) rfl
  cases r with
  | error e => exact came_error hp hf
  | ok rows =>
    refine came_ok hp (hf.trans (List.append_nil _)) ⟨hmem, fun key => ?_⟩
    rw [hp.amends.hasRow, ← Store.mem_keys_iff, ← Store.selectAll_eq_ok hs.keyed (hr rows rfl)]

theorem attains_indexKeys (hs : s.world.Sane) :
    (Attempt.index .keys).Attains amid (Came (fun indexed s' =>
      .step (.index .keys) (.ok indexed) ∈ s'.trace ∧
      ∀ key, s'.world.store.HasRow key ∨ key ∈ indexed ∨ s'.world.InSync key) s) s := by
  refine attains_index.2 ⟨trivial, fun r s₁ h => ?_⟩
  have ⟨_, _, hmem, _⟩ := h
  obtain ⟨w, ha, h⟩ := after_answer h hs
  rcases ha.index with ⟨e, rfl, rfl⟩ | ⟨rfl, rfl⟩
  · obtain ⟨-, hp, hf⟩ := h (.refl _) rfl
    exact came_error hp hf
  · obtain ⟨-, hp, hf⟩ := h (.refl _) rfl
    refine came_ok hp (hf.trans (List.append_nil _)) ⟨hmem, fun key => ?_⟩
    by_cases hrow : s.world.store.HasRow key
    · exact .inl ((hp.amends.hasRow key).2 hrow)
    · by_cases hdoc : s.world.index.get? key = none
      · exact .inr (.inr (hp.amends.inSync (.inr ⟨hrow, hdoc⟩)))
      · exact .inr (.inl (Index.mem_keys_iff.2 (Option.isSome_iff_ne_none.2 hdoc)))

theorem attains_rebuild (hs : s.world.Sane) : rebuild.Attains amid (Came Rebuilt s) s := by
  refine attains_bind_came (attains_selectAll hs) ?_
  rintro rows s₁ hp₁ ⟨hselect, hrows⟩
  have hs₁ := hp₁.amends.sane hs
  refine attains_bind_came (attains_indexKeys hs₁) ?_
  rintro indexed s₂ hp₂ ⟨hkeys, hindexed⟩
  refine (attains_syncKeys (hp₂.amends.sane hs₁) _).mono fun r s₃ h => ⟨h.precedes, ?_, h.error⟩
  rintro n rfl
  obtain ⟨hfail, hsync, hn⟩ := h.ok n rfl
  have hp₃ := hp₂.trans h.precedes
  refine ⟨hfail, fun key => ?_, rows, indexed, hp₃.trace.subset hselect,
    h.precedes.trace.subset hkeys, hn⟩
  -- a key that is not visited was in sync when the documents were listed
  rcases hindexed key with hrow | hk | hin
  · refine hsync key (mem_keysToSync.2 (.inl ((hrows key).2 ?_)))
    exact (hp₂.amends.hasRow key).1 hrow
  · exact hsync key (mem_keysToSync.2 (.inr hk))
  · exact h.precedes.amends.inSync hin

/-- The whole call, whose event changes neither store nor index. -/
theorem attains_indexAll (hs : s.world.Sane) : indexAll.Attains amid (Came Rebuilt s) s := by
  refine Script.attains_bind.2 ((attains_rebuild hs).mono fun r s₁ h => ?_)
  refine Script.attains_bind.2 (Script.attains_single.2 ⟨trivial, fun _ s₂ h₂ => ?_⟩)
  obtain ⟨w, ha, h₂⟩ := after_answer h₂ (h.precedes.amends.sane hs)
  obtain rfl := ha.record
  obtain ⟨-, hp, hf⟩ := h₂ ⟨id, fun _ => Iff.rfl, fun _ => rfl, fun _ => .inl ⟨rfl, rfl⟩⟩ rfl
  replace hf := hf.trans (List.append_nil _)
  refine ⟨h.precedes.trans hp, fun n hn => ?_, fun e he => hf.trans (h.error e he)⟩
  obtain ⟨hfail, hsync, rows, indexed, hselect, hkeys, rfl⟩ := h.ok n hn
  exact ⟨hf.trans hfail, fun key => hp.amends.inSync (hsync key), rows, indexed,
    hp.trace.subset hselect, hp.trace.subset hkeys, (rowCount_eq hp.amends.hasRow _).symm⟩

/-! ## Rebuilding once more -/

theorem attains_syncKey_undisturbed {w : World} (hw : w.Sane) (h : w.Agrees key) :
    (syncKey key).Attains undisturbed
      (fun r w' => r = .ok (w.store.cell? key).isSome ∧ w' = w) w := by
  obtain ⟨row?, hread, hdoc⟩ := h
  refine attains_bind.2 (attains_store.2 ⟨trivial, fun r w₁ h => ?_⟩)
  obtain ⟨rfl, hr⟩ := perform_read_eq (Store.perform_selectByKey _ _ _) h
  obtain rfl : r = .ok row? := hr.symm.trans hread
  rcases Store.selectByKey_eq_ok hread with ⟨rfl, hnone⟩ | ⟨c, row, rfl, hc, hrow⟩
  · refine attains_bind.2 (attains_index.2 ⟨trivial, fun r w₂ h => ?_⟩)
    have hsame : w₁.index.remove key = w₁.index := congrArg Index.mk (KeyMap.erase_eq_self hdoc)
    cases h
    refine ⟨by rw [hnone]; rfl, ?_⟩
    rw [hsame]
  · have hkey := Store.key_of_read hw.keyed hc hrow
    refine attains_bind.2 (attains_index.2 ⟨trivial, fun r w₂ h => ?_⟩)
    have hkept : w₁.index.get? row.doc.key = some row.doc := by
      rw [show row.doc.key = key from hkey]
      exact hdoc
    have hsame : w₁.index.put row.doc = w₁.index := congrArg Index.mk (KeyMap.insert_eq_self hkept)
    cases h
    refine ⟨by rw [hc]; rfl, ?_⟩
    rw [hsame]

/-- Whether the worlds have the same store and the same index, and no lock is poisoned. -/
structure Rests (w w' : World) : Prop where
  store : w'.store = w.store
  index : w'.index = w.index
  sane : w'.Sane

theorem attains_syncKeys_undisturbed {w : World} (hw : w.Sane) (h : ∀ key, w.Agrees key)
    (keys : List IssueKey) : (syncKeys keys).Attains undisturbed
      (fun r w' => r = .ok (rowCount w keys) ∧ Rests w w') w := by
  induction keys generalizing w with
  | nil => exact ⟨rfl, rfl, rfl, hw⟩
  | cons key keys ih =>
    have hunpoisoned := hw.unpoisoned key
    refine attains_bind.2 (Script.attains_bind.2 (Script.attains_single.2
      ⟨trivial, fun entered w₁ h₁ => ?_⟩))
    obtain ⟨rfl, rfl⟩ := Answers.enter (.inl h₁)
    have hw₁ : { w with locks := (w.locks.enter key).2 : World }.Sane :=
      (amends_locks (LockTable.isPoisoned_enter _ _)).sane hw
    rw [LockTable.enter_fst, hunpoisoned]
    refine Script.attains_bind.2 ((attains_syncKey_undisturbed hw₁ (h key)).mono ?_)
    rintro _ _ ⟨rfl, rfl⟩
    refine Script.attains_bind.2 (Script.attains_single.2 ⟨trivial, ?_⟩)
    rintro _ _ ⟨⟩
    have hw₂ := (amends_locks (LockTable.isPoisoned_leave (hw₁.unpoisoned key))).sane hw₁
    refine attains_bind.2 ((ih hw₂ h).mono ?_)
    rintro _ w' ⟨rfl, hrests⟩
    exact ⟨congrArg Except.ok (rowCount_cons w key keys).symm, hrests.store, hrests.index,
      hrests.sane⟩

theorem rowCount_keysToSync {w : World} {rows : List Issue} {indexed : List IssueKey}
    (hrows : rows.map (·.key) = w.store.keys) :
    rowCount w (keysToSync rows indexed) = rows.length := by
  have hperm : ((keysToSync rows indexed).filter fun key => (w.store.cell? key).isSome).Perm
      (rows.map (·.key)) := by
    refine (List.perm_ext_iff_of_nodup ((nodup_keysToSync _ _).filter _)
      (hrows ▸ w.store.nodup_keys)).2 fun key => ?_
    rw [List.mem_filter, mem_keysToSync, hrows, Store.mem_keys_iff]
    exact ⟨fun h => h.2, fun h => ⟨.inl h, h⟩⟩
  rw [rowCount, List.countP_eq_length_filter, hperm.length_eq, List.length_map]

/-- Where every document agrees with what is read, rebuilding the index changes nothing. -/
theorem attains_indexAll_undisturbed {w : World} (hw : w.Sane) (h : ∀ key, w.Agrees key)
    {rows : List Issue} (hrows : w.read .selectAll = .ok rows) :
    indexAll.Attains undisturbed (fun r w' => r = .ok rows.length ∧ Rests w w') w := by
  have hrebuild : rebuild.Attains undisturbed (fun r w' => r = .ok rows.length ∧ Rests w w') w := by
    refine attains_bind.2 (attains_store.2 ⟨trivial, fun r w₁ h₁ => ?_⟩)
    obtain ⟨rfl, hr⟩ := perform_read_eq (Store.perform_selectAll _ _) h₁
    obtain rfl : r = .ok rows := hr.symm.trans hrows
    refine attains_bind.2 (attains_index.2 ⟨trivial, ?_⟩)
    rintro _ _ ⟨⟩
    refine (attains_syncKeys_undisturbed hw h _).mono ?_
    rintro _ w' ⟨rfl, hrests⟩
    exact ⟨congrArg Except.ok (rowCount_keysToSync (Store.selectAll_eq_ok hw.keyed hrows)), hrests⟩
  refine Script.attains_bind.2 (hrebuild.mono ?_)
  rintro _ w' ⟨rfl, hrests⟩
  refine Script.attains_bind.2 (Script.attains_single.2 ⟨trivial, ?_⟩)
  rintro _ _ ⟨⟩
  exact ⟨rfl, hrests.store, hrests.index, hrests.sane.keyed, hrests.sane.unpoisoned⟩

/-! ## The whole call -/

/-- What the whole call has come to amid successful changes of other callers: all keys are accounted
for, `n` of the listed keys have a row, and the latest change of each key is what the store holds.
If the store works, each document is that of the row which is read there, and rebuilding once more
changes nothing. -/
structure Converged (n : Nat) (s : Course) : Prop where
  accounted : ∀ key, s.world.Accounted key
  count : ∃ rows indexed, .step (.store .selectAll) (.ok rows) ∈ s.trace ∧
    .step (.index .keys) (.ok indexed) ∈ s.trace ∧ n = rowCount s.world (keysToSync rows indexed)
  standing : ∀ key d, latest s.trace key = some d →
    d.key = key ∧ s.world.store.Holds d.issue ∧
      (s.world.StoreWorks → s.world.store.Keeps d.issue → s.world.index.get? key = some d)
  agrees : s.world.StoreWorks → ∀ key, s.world.Agrees key
  again : s.world.StoreWorks → ∃ rows w', s.world.read .selectAll = .ok rows ∧
    indexAll.run s.world [] = (.returned (.ok rows.length), w') ∧
    w'.store = s.world.store ∧ w'.index = s.world.index

theorem converged_of_rebuilt {n : Nat} (hs : s.world.Sane) (h : Rebuilt n s)
    (hstanding : s.Standing) : Converged n s where
  accounted := fun key => (h.1 key).accounted
  count := h.2
  standing := by
    intro key d hd
    obtain ⟨rfl, hholds⟩ := hstanding key d hd
    refine ⟨rfl, hholds, fun hworks hkeeps => ?_⟩
    obtain ⟨row?, hread, hdoc⟩ := (h.1 d.key).agrees hworks
    cases hread.symm.trans (hholds.shows.selectByKey_iff.2 hkeeps)
    exact hdoc
  agrees := fun hworks key => (h.1 key).agrees hworks
  again := by
    intro hworks
    obtain ⟨rows, hrows⟩ := hworks.lists
    obtain ⟨_, w', hagain, rfl, hrests⟩ := (attains_indexAll_undisturbed hs
      (fun key => (h.1 key).agrees hworks) hrows).runFrom_nil []
    exact ⟨rows, w', hrows, hagain, hrests.store, hrests.index⟩

/-- Rebuilding the index amid any successful changes of other callers ends with the error of the
first call that fails, each document as it was or its key accounted for, or else with all of them
accounted for. -/
theorem indexAll_converges (limits : ServiceLimits) {w : World} (hw : w.Sane) (beats : List Beat)
    {r : Except ServiceError Nat} {s : Course}
    (hrun : indexAll.runAmid limits ⟨w, []⟩ beats = (r, s)) (hok : AllSucceed s.trace) :
    (s.failures = [] → ∃ n, r = .ok n ∧ Converged n s) ∧
      ∀ e ∈ s.failures, r = .error e ∧ ∀ key,
        s.world.index.get? key = w.index.get? key ∨ s.world.Accounted key := by
  have hstart : indexAll.Attains amid (Came Rebuilt ⟨w, []⟩) ⟨w, []⟩ := attains_indexAll hw
  have h := hstart.runAmid (by rw [hrun]; exact hok)
  rw [hrun] at h
  cases r with
  | error e =>
    have hfail : s.failures = [e] := h.error e rfl
    refine ⟨fun hnone => ?_, fun e' he' => ?_⟩
    · rw [hfail] at hnone
      cases hnone
    · rw [hfail, List.mem_singleton] at he'
      refine ⟨he' ▸ rfl, fun key => ?_⟩
      exact (h.precedes.amends.keys key).imp (·.2) InSync.accounted
  | ok n =>
    obtain ⟨hfail, hrebuilt⟩ := h.ok n rfl
    refine ⟨fun _ => ⟨n, rfl, ?_⟩, fun e he => ?_⟩
    · exact converged_of_rebuilt (h.precedes.amends.sane hw) hrebuilt
        (h.precedes.standing fun key d hd => nomatch hd)
    · rw [show s.failures = [] from hfail] at he
      cases he

/-- An open issue in the sample world. -/
def sampleIssue (key : String) : Issue :=
  .fresh ⟨key⟩ ⟨"manual:manualRuleKey"⟩ ⟨⟨"sample"⟩, ⟨"sample"⟩, ⟨"sample"⟩⟩

/-- The sample world with an issue that is not indexed, one whose document is outdated, and a
document without an issue. -/
def sampleDivergence : World :=
  { World.sample with
    store := .memory ((({} : MemoryStore).put (sampleIssue "a")).put (sampleIssue "b"))
    index := (({} : Index).put { sampleIssue "b" with severity := .info : Issue }.doc).put
      (sampleIssue "c").doc }

/-- One issue is changed before the rebuilding comes to it, the other one after that. -/
def sampleBeats : List Beat :=
  [{ changes := [⟨⟨⟨"gandalf"⟩, []⟩, ⟨"b"⟩, .setSeverity .blocker⟩] }, {}, {}, {}, {},
    { changes := [⟨⟨⟨"gandalf"⟩, []⟩, ⟨"a"⟩, .setSeverity .minor⟩] }]

theorem indexAll_converges_sample : sampleDivergence.Sane ∧ ∃ r s,
    indexAll.runAmid {} ⟨sampleDivergence, []⟩ sampleBeats = (r, s) ∧ AllSucceed s.trace ∧
      s.failures = [] ∧ s.world.StoreWorks ∧ ∃ n, r = .ok n ∧ Converged n s := by
  have hsane : sampleDivergence.Sane :=
    ⟨MemoryStore.keyed_put (MemoryStore.keyed_put (fun key i hi => by cases hi) _) _, fun _ => rfl⟩
  have hok : AllSucceed (indexAll.runAmid {} ⟨sampleDivergence, []⟩ sampleBeats).2.trace := by
    decide
  have hfailures : (indexAll.runAmid {} ⟨sampleDivergence, []⟩ sampleBeats).2.failures = [] := rfl
  have hworks : (indexAll.runAmid {} ⟨sampleDivergence, []⟩ sampleBeats).2.world.StoreWorks :=
    storeWorks_memory rfl
  exact ⟨hsane, _, _, rfl, hok, hfailures, hworks,
    (indexAll_converges {} hsane sampleBeats rfl hok).1 hfailures⟩

end Service

end Triage
