import Mathlib.Data.List.TakeWhile
import Triage.Config.Building
import Triage.Proofs.Files.Path
import Triage.Proofs.Result

/-!
# The path of the store

A configuration is checked with the white space at the ends of its path left aside, and the store is
opened at the path as it is written.  So a configuration that is not refused names a path within the
limits of the store unless that white space makes the path, or the name at one of its ends, too
long.  Whatever else keeps the store from being opened lies with the files or with the engine.
-/

namespace Triage

namespace Text

variable {s : String} {c : Char}

/-- A text is its trimmed one with white space put before it and after it. -/
theorem exists_eq_append_trim (s : String) : ∃ lead trail : List Char,
    s.toList = lead ++ (trim s).toList ++ trail ∧ (∀ c ∈ lead, isBlank c = true) ∧
      ∀ c ∈ trail, isBlank c = true := by
  let rest := (s.toList.dropWhile isBlank).reverse
  refine ⟨s.toList.takeWhile isBlank, (rest.takeWhile isBlank).reverse, ?_,
    fun c hc => List.mem_takeWhile_imp hc,
    fun c hc => List.mem_takeWhile_imp (List.mem_reverse.1 hc)⟩
  have hrest : (rest.dropWhile isBlank).reverse ++ (rest.takeWhile isBlank).reverse =
      s.toList.dropWhile isBlank := by
    rw [← List.reverse_append, List.takeWhile_append_dropWhile, List.reverse_reverse]
  rw [trim, String.toList_ofList, List.append_assoc, hrest, List.takeWhile_append_dropWhile]

theorem slash_not_mem {cs : List Char} (h : ∀ c ∈ cs, isBlank c = true) : '/' ∉ cs :=
  fun hin => absurd (h '/' hin) (by decide)

end Text

/-! ## Limits -/

namespace Path

variable {p : Path} {f : Files}

/-- Whether the path keeps the limits of a path. -/
structure Within (p : Path) : Prop where
  nonempty : p.text ≠ ""
  bytes : p.text.utf8ByteSize ≤ maxBytes
  names : p.hasOverlongName = false

theorem ne_empty_of_trim (h : (Path.mk (Text.trim p.text)).Within) : p.text ≠ "" := by
  intro hempty
  refine h.nonempty ?_
  rw [hempty]
  rfl

/-- With white space at its ends, a path within the limits stays there unless it is too long now, or
the name at one of its ends is. -/
theorem within_iff_of_trim (h : (Path.mk (Text.trim p.text)).Within) : p.Within ↔
    p.text.utf8ByteSize ≤ maxBytes ∧ p.first.utf8ByteSize ≤ maxNameBytes ∧
      p.last.utf8ByteSize ≤ maxNameBytes := by
  obtain ⟨lead, trail, htext, hlead, htrail⟩ := Text.exists_eq_append_trim p.text
  have hnames := hasOverlongName_append_iff (Text.slash_not_mem hlead) (Text.slash_not_mem htrail)
    htext (by rw [String.ofList_toList]; exact h.names)
  constructor
  · intro hp
    have hshort := mt hnames.2 (by simp [hp.names])
    rw [not_or, Nat.not_lt, Nat.not_lt] at hshort
    exact ⟨hp.bytes, hshort⟩
  · rintro ⟨hbytes, hfirst, hlast⟩
    refine ⟨ne_empty_of_trim h, hbytes, Bool.eq_false_iff.2 (mt hnames.1 ?_)⟩
    simp [hfirst, hlast]

/-- What the limits of a store say of a path that is not empty. -/
theorem checkStore_eq (h : p.text ≠ "") (f : Files) : p.checkStore f =
    if maxBytes < p.text.utf8ByteSize then .error (.invalid "store path exceeds length limit")
    else if p.hasOverlongName then .error (.invalid "store path contains an overlong component")
    else if (f.find? p).any FileTree.isDir then
      .error (.invalid "store path must be a file, not a directory")
    else .ok () := by
  have hempty : p.text.isEmpty = false := by simpa using h
  simp [checkStore, isOverlong, hempty]

theorem checkStore_ne_empty (h : p.text ≠ "") (f : Files) :
    p.checkStore f ≠ .error (.invalid "store path is empty") := by
  rw [checkStore_eq h]
  split_ifs <;> simp

theorem checkStore_eq_overlong_iff (h : p.text ≠ "") (f : Files) :
    p.checkStore f = .error (.invalid "store path exceeds length limit") ↔
      maxBytes < p.text.utf8ByteSize := by
  rw [checkStore_eq h]
  split_ifs with hlong hname hdir <;> simp [hlong]

theorem checkStore_eq_overlongName_iff (h : p.text ≠ "") (f : Files) :
    p.checkStore f = .error (.invalid "store path contains an overlong component") ↔
      p.text.utf8ByteSize ≤ maxBytes ∧ ¬p.Within := by
  rw [checkStore_eq h]
  split_ifs with hlong hname hdir
  · simp [Nat.not_le.2 hlong]
  · have hout : ¬p.Within := fun hp => by simp [hp.names] at hname
    simpa [hout] using hlong
  all_goals
    have hin : p.Within := ⟨h, Nat.not_lt.1 hlong, by simpa using hname⟩
    simp [hin]

theorem exists_checkStore_of_not_within (h : p.text ≠ "") (hp : ¬p.Within) (f : Files) :
    ∃ detail, p.checkStore f = .error (.invalid detail) := by
  by_cases hlong : maxBytes < p.text.utf8ByteSize
  · exact ⟨_, (checkStore_eq_overlong_iff h f).2 hlong⟩
  · exact ⟨_, (checkStore_eq_overlongName_iff h f).2 ⟨Nat.not_lt.1 hlong, hp⟩⟩

end Path

/-! ## Reasons that lie outside -/

/-- Whether the error lies with the files, with the engine or with what the database holds. -/
def DatabaseError.IsOutside : DatabaseError → Prop
  | .io _ | .engine _ | .versionMismatch _ => True
  | _ => False

/-- Whether nothing but such an error can come of it. -/
def FailsOutside {α : Type} (x : Except DatabaseError α) : Prop := ∀ e, x = .error e → e.IsOutside

section

variable {α β : Type} {f : Files} {s : DatabaseSite}

theorem failsOutside_ok (a : α) : FailsOutside (.ok a) := nofun

theorem failsOutside_error {e : DatabaseError} (h : e.IsOutside) :
    FailsOutside (.error e : Except DatabaseError α) := by
  rintro _ ⟨⟩
  exact h

theorem FailsOutside.ite {c : Prop} [Decidable c] {x y : Except DatabaseError α}
    (hx : FailsOutside x) (hy : FailsOutside y) : FailsOutside (if c then x else y) := by
  split_ifs
  · exact hx
  · exact hy

theorem failsOutside_cannotOpen : FailsOutside (DatabaseSite.cannotOpen (α := α)) :=
  failsOutside_error trivial

theorem FailsOutside.bind {x : Except DatabaseError α} {g : α → Except DatabaseError β}
    (hx : FailsOutside x) (hg : ∀ a, FailsOutside (g a)) : FailsOutside (x >>= g) := by
  intro e he
  rcases bind_eq_error.1 he with he | ⟨a, -, he⟩
  · exact hx e he
  · exact hg a e he

theorem failsOutside_foldlM {g : β → α → Except DatabaseError β} (hg : ∀ b a, FailsOutside (g b a))
    (as : List α) (b : β) : FailsOutside (as.foldlM g b) := by
  induction as generalizing b with
  | nil => exact failsOutside_ok b
  | cons a as ih => exact (hg b a).bind ih

theorem failsOutside_makeParent (p : Path) (f : Files) : FailsOutside (p.makeParent f) := by
  unfold Path.makeParent
  split
  · exact failsOutside_error trivial
  · split
    · exact failsOutside_ok _
    · exact failsOutside_error trivial

namespace DatabaseSite

theorem failsOutside_walk (f : Files) (place : List String) (n : String) :
    FailsOutside (walk f place n) := by
  simp only [walk]
  exact .ite (failsOutside_ok _) (.ite (failsOutside_ok _)
    (.ite failsOutside_cannotOpen (failsOutside_ok _)))

theorem failsOutside_makeFile (f : Files) (place : List String) (mode : AccessMode) :
    FailsOutside (makeFile f place mode) := by
  simp only [makeFile]
  refine .ite failsOutside_cannotOpen ?_
  rcases f.get? place with _ | content | entries
  · exact .ite (failsOutside_ok _) failsOutside_cannotOpen
  · exact .ite (failsOutside_ok _) (failsOutside_error trivial)
  · exact failsOutside_cannotOpen

theorem failsOutside_ofAddress (f : Files) (a : Address) : FailsOutside (ofAddress f a) := by
  unfold ofAddress
  split
  case h_2 => exact failsOutside_error trivial
  case h_1 =>
    split
    · exact failsOutside_ok _
    · refine .ite failsOutside_cannotOpen ?_
      refine (failsOutside_foldlM (failsOutside_walk f) _ _).bind fun place => ?_
      refine (failsOutside_makeFile f place _).bind fun f => ?_
      refine .ite (FailsOutside.bind (failsOutside_error trivial) fun _ => ?_) ?_ <;>
        exact .ite failsOutside_cannotOpen (failsOutside_ok _)

theorem failsOutside_ofPath (f : Files) (p : Path) : FailsOutside (ofPath f p) := by
  unfold ofPath
  split_ifs
  · exact failsOutside_error trivial
  · split
    · exact failsOutside_error trivial
    · exact failsOutside_ofAddress f _

theorem failsOutside_checkWrite (s : DatabaseSite) (f : Files) : FailsOutside (s.checkWrite f) := by
  exact .ite (failsOutside_error trivial) (.ite failsOutside_cannotOpen (failsOutside_ok ()))

theorem failsOutside_opened (db : Database) : FailsOutside db.opened := by
  unfold Database.opened
  split
  · exact failsOutside_ok _
  · exact .ite (failsOutside_ok _) (failsOutside_error trivial)

theorem failsOutside_prepare (s : DatabaseSite) (f : Files) (mode : JournalMode)
    (held : Option Database) : FailsOutside (s.prepare f mode held) := by
  unfold prepare
  refine (failsOutside_checkWrite s f).bind fun _ => ?_
  exact .ite (failsOutside_cannotOpen.bind fun _ => failsOutside_opened _) (failsOutside_opened _)

end DatabaseSite

end

/-- A connection at a path within the limits fails for a directory in its place, or for reasons that
lie outside. -/
theorem Database.of_connect_eq_error {f : Files} {settings : DatabaseSettings} {e : DatabaseError}
    (h : (Path.mk settings.path).Within) (he : connect f settings = .error e) :
    e.IsOutside ∨ e = .invalid "store path must be a file, not a directory" ∧
      (f.find? ⟨settings.path⟩).any FileTree.isDir = true := by
  unfold connect at he
  rcases bind_eq_error.1 he with he | ⟨-, -, he⟩
  · rw [Path.checkStore_eq h.nonempty, if_neg (Nat.not_lt.2 h.bytes), h.names] at he
    simp only [Bool.false_eq_true, if_false] at he
    split_ifs at he with hdir
    cases he
    exact .inr ⟨rfl, hdir⟩
  · refine .inl ((failsOutside_makeParent _ f).bind (fun f => ?_) e he)
    refine (DatabaseSite.failsOutside_ofPath f _).bind fun r => ?_
    exact .ite ((DatabaseSite.failsOutside_checkWrite r.1 r.2).bind fun _ => failsOutside_ok _)
      (failsOutside_ok _)

namespace Database

variable {f : Files} {settings : DatabaseSettings} {e : DatabaseError}

theorem openAt_of_checkStore (h : (Path.mk settings.path).checkStore f = .error e) :
    openAt f settings = .returned (.error e) := by
  have hconnect : connect f settings = .error e := bind_eq_error.2 (.inl h)
  rw [openAt, hconnect]

theorem of_openAt_eq_panicked (h : openAt f settings = .panicked) :
    maxBusyTimeoutMs < settings.busyTimeoutMs := by
  unfold openAt at h
  rcases hconnect : connect f settings with e | ⟨s, f'⟩ <;> rw [hconnect] at h
  · cases h
  · dsimp only at h
    split_ifs at h with hbusy
    exact hbusy

theorem of_openAt_eq_error (h : (Path.mk settings.path).Within)
    (he : openAt f settings = .returned (.error e)) :
    e.IsOutside ∨ e = .invalid "store path must be a file, not a directory" ∧
      (f.find? ⟨settings.path⟩).any FileTree.isDir = true := by
  unfold openAt at he
  rcases hconnect : connect f settings with d | ⟨s, f'⟩ <;> rw [hconnect] at he
  · cases he
    exact of_connect_eq_error h hconnect
  · dsimp only at he
    split_ifs at he
    simp only [Outcome.returned.injEq] at he
    exact .inl (DatabaseSite.failsOutside_prepare s f' _ _ e (map_eq_error.1 he))

end Database

namespace Config

variable {c : Config}

/-! ## Configurations -/

theorem within_of_checkPath {field text : String} (h : checkPath field text = .ok ()) :
    (Path.mk (Text.trim text)).Within := by
  simp only [checkPath, refuse] at h
  split_ifs at h with hempty hlong hname
  exact ⟨by simpa using hempty, by simpa [Path.isOverlong] using hlong, by simpa using hname⟩

/-- A configuration that is not refused has a database lie at a path that is within the limits once
trimmed. -/
theorem exists_settings_of_validate (hc : c.validate = .ok ()) (htype : c.store.type = .database) :
    ∃ settings, c.databaseSettings? = some settings ∧ c.store.path = some settings.path ∧
      settings.busyTimeoutMs = c.store.busyTimeoutMs ∧
      (Path.mk (Text.trim settings.path)).Within := by
  obtain ⟨_, hstore, -⟩ := bind_eq_ok.1 hc
  rw [checkStore, htype] at hstore
  rcases hpath : c.store.path with _ | path <;> rw [hpath] at hstore
  · cases hstore
  · obtain ⟨_, hcheck, -⟩ := bind_eq_ok.1 hstore
    refine ⟨⟨path, c.store.busyTimeoutMs, c.store.journalMode, c.store.syncMode⟩, ?_, rfl, rfl,
      within_of_checkPath hcheck⟩
    simp [databaseSettings?, htype, hpath]

variable {settings : DatabaseSettings} {f : Files}

theorem openStore_eq_error_iff (htype : c.store.type = .database)
    (h : c.databaseSettings? = some settings) {e : ConfigError} :
    c.openStore f = .returned (.error e) ↔
      ∃ d, e = .store d ∧ Database.openAt f settings = .returned (.error d) := by
  unfold openStore
  rw [htype, h]
  dsimp only
  rcases Database.openAt f settings with (d | ⟨db, f'⟩) | _ <;> simp [Outcome.map, eq_comm]

theorem openStore_eq_panicked_iff (htype : c.store.type = .database)
    (h : c.databaseSettings? = some settings) :
    c.openStore f = .panicked ↔ Database.openAt f settings = .panicked := by
  unfold openStore
  rw [htype, h]
  dsimp only
  rcases Database.openAt f settings with (d | ⟨db, f'⟩) | _ <;> simp [Outcome.map]

/-- If the configuration is not refused, its database lies at the path as it is written, which is
within the limits of a path when trimmed.  Whether the limits of the store let it pass is a matter
of the white space at its ends: the store refuses it just if with it the path is too long, or the
name at one of its ends.  Else the store is opened, or what keeps it from that is a directory in its
place, or lies with the files, the engine or what the database holds; and it breaks off only for a
time to wait that the engine cannot count. -/
theorem store_path_of_validate (hc : c.validate = .ok ()) :
    (c.store.type = .memory → ∀ f, c.openStore f = .returned (.ok (.memory {}, f))) ∧
    (c.store.type = .database → ∃ (p : Path) (settings : DatabaseSettings),
      c.databaseSettings? = some settings ∧ settings.path = p.text ∧ c.store.path = some p.text ∧
      settings.busyTimeoutMs = c.store.busyTimeoutMs ∧ (Path.mk (Text.trim p.text)).Within ∧
      (p.Within ↔ p.text.utf8ByteSize ≤ Path.maxBytes ∧
        p.first.utf8ByteSize ≤ Path.maxNameBytes ∧ p.last.utf8ByteSize ≤ Path.maxNameBytes) ∧
      (Text.trim p.text = p.text → p.Within) ∧
      ∀ f, p.checkStore f ≠ .error (.invalid "store path is empty") ∧
        (p.checkStore f = .error (.invalid "store path exceeds length limit") ↔
          Path.maxBytes < p.text.utf8ByteSize) ∧
        (p.checkStore f = .error (.invalid "store path contains an overlong component") ↔
          p.text.utf8ByteSize ≤ Path.maxBytes ∧ ¬p.Within) ∧
        (¬p.Within → ∃ detail, p.checkStore f = .error (.invalid detail) ∧
          c.openStore f = .returned (.error (.store (.invalid detail)))) ∧
        (p.Within → (c.openStore f = .panicked → maxBusyTimeoutMs < c.store.busyTimeoutMs) ∧
          ∀ e, c.openStore f = .returned (.error e) → ∃ d, e = .store d ∧ (d.IsOutside ∨
            d = .invalid "store path must be a file, not a directory" ∧
              (f.find? p).any FileTree.isDir = true))) := by
  refine ⟨fun htype f => ?_, fun htype => ?_⟩
  · unfold openStore
    rw [htype]
  obtain ⟨settings, hsettings, hpath, hbusy, htrim⟩ := exists_settings_of_validate hc htype
  obtain ⟨p, hp⟩ : ∃ p : Path, settings.path = p.text := ⟨⟨settings.path⟩, rfl⟩
  rw [hp] at hpath htrim
  have hne := Path.ne_empty_of_trim htrim
  refine ⟨p, settings, hsettings, hp, hpath, hbusy, htrim, Path.within_iff_of_trim htrim,
    fun h => by rwa [h] at htrim, fun f => ⟨Path.checkStore_ne_empty hne f,
      Path.checkStore_eq_overlong_iff hne f, Path.checkStore_eq_overlongName_iff hne f,
      fun hout => ?_, fun hin => ⟨fun h => ?_, fun e he => ?_⟩⟩⟩
  · obtain ⟨detail, hdetail⟩ := Path.exists_checkStore_of_not_within hne hout f
    refine ⟨detail, hdetail, (openStore_eq_error_iff htype hsettings).2 ⟨_, rfl, ?_⟩⟩
    exact Database.openAt_of_checkStore (by rwa [hp])
  · rw [← hbusy]
    exact Database.of_openAt_eq_panicked ((openStore_eq_panicked_iff htype hsettings).1 h)
  · obtain ⟨d, rfl, hd⟩ := (openStore_eq_error_iff htype hsettings).1 he
    have hreason := Database.of_openAt_eq_error (by rwa [hp]) hd
    rw [hp] at hreason
    exact ⟨d, rfl, hreason⟩

/-- A configuration with a database at a path that is followed by many blanks. -/
def samplePadded : Config :=
  { store := { type := .database, path := some (.ofList ('d' :: .replicate 255 ' ')) } }

/-- It is not refused, and its store is, whatever the files. -/
theorem store_path_of_validate_sample : samplePadded.validate = .ok () ∧
    samplePadded.store.type = .database ∧ ∀ f, ∃ detail,
      samplePadded.openStore f = .returned (.error (.store (.invalid detail))) := by
  have hc : samplePadded.validate = .ok () := by
    simp only [validate, checkStore, samplePadded, checkPath, Text.trim, String.toList_ofList]
    decide +kernel
  obtain ⟨p, settings, -, -, hpath, -, -, hwithin, -, hstore⟩ :=
    (store_path_of_validate hc).2 rfl
  refine ⟨hc, rfl, fun f => ?_⟩
  obtain ⟨-, -, -, hout, -⟩ := hstore f
  obtain rfl : p = ⟨.ofList ('d' :: .replicate 255 ' ')⟩ :=
    congrArg Path.mk (Option.some.inj hpath).symm
  have hlong : ¬(Path.first ⟨.ofList ('d' :: .replicate 255 ' ')⟩).utf8ByteSize ≤
      Path.maxNameBytes := by
    simp only [Path.first, String.toList_ofList]
    decide +kernel
  obtain ⟨detail, -, hopen⟩ := hout fun hin => hlong (hwithin.1 hin).2.1
  exact ⟨detail, hopen⟩

end Config

end Triage
