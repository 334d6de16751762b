import PumpResearch.Archive.CopyArchive
import PumpResearch.Library.Runs

/-! Interleaved and interrupted copies: what the store holds when the archives agree on the files
they share, and how a check before a rename loses an object when they do not. -/
namespace PumpResearch.Archive
open KeyedTable Results Runs
variable {format : ArchiveFormat}

/-! ### Verified archives -/

theorem verifyEntry_eq_ok {files : ObjectKey → Option FileBytes} {entry : ManifestEntry}
    (h : verifyEntry format files entry = .ok ()) :
    ∃ content, files (.data entry.file) = some content ∧
      format.sha256 content = entry.fileSha256 := by
  unfold verifyEntry at h
  split at h
  · cases h
  · next content hcontent =>
    split at h
    · cases h
    · next hdigest => exact ⟨content, hcontent, not_not.mp hdigest⟩

theorem verifyEntries_eq_ok {files : ObjectKey → Option FileBytes} {found : Manifest}
    (h : verifyEntries format files found = .ok ()) {entry : ManifestEntry}
    (hentry : entry ∈ found.entries) : verifyEntry format files entry = .ok () := by
  simp only [verifyEntries, bind_eq_ok] at h
  obtain ⟨_, hentries, _⟩ := h
  exact forM_eq_ok.mp hentries entry hentry

theorem verifyEntries_congr {files files' : ObjectKey → Option FileBytes} {found : Manifest}
    (h : ∀ entry ∈ found.entries, files' (.data entry.file) = files (.data entry.file)) :
    verifyEntries format files' found = verifyEntries format files found := by
  have hentries : forM found.entries (verifyEntry format files') =
      forM found.entries (verifyEntry format files) :=
    forM_congr fun entry hentry => by simp only [verifyEntry, h entry hentry]
  have hfiles : (found.entries.map fun entry => (entry, files' (.data entry.file))) =
      found.entries.map fun entry => (entry, files (.data entry.file)) :=
    List.map_congr_left fun entry hentry => by rw [h entry hentry]
  simp only [verifyEntries, hentries, hfiles]

/-- What a verified archive holds: its manifest, its sidecar, and its data files. -/
structure Holds (format : ArchiveFormat) (directory : String)
    (files : ObjectKey → Option FileBytes) (content : FileBytes) (found : Manifest) : Prop where
  manifest : files (.manifest directory) = some content
  reads : format.manifest content = some found
  sidecar : ∃ sidecar, files (.sidecar directory) = some sidecar ∧
    format.sidecar sidecar = some (format.sha256 content)
  data : ∀ entry ∈ found.entries, ∃ data, files (.data entry.file) = some data ∧
    format.sha256 data = entry.fileSha256

theorem verifyArchive_eq_ok {directory : String} {files : ObjectKey → Option FileBytes}
    {detail : VerificationDetail} (h : verifyArchive format directory files = .ok detail) :
    ∃ content found, Holds format directory files content found ∧
      found.source.archiveSchemaVersion = 2 ∧ verifyEntries format files found = .ok () ∧
      detail = verificationDetail found (format.sha256 content) := by
  unfold verifyArchive at h
  split at h
  · cases h
  · next content hcontent =>
    split at h
    · cases h
    · next found hfound =>
      split at h
      · cases h
      · next hversion =>
        split at h
        · cases h
        · next sidecar hsidecar =>
          split at h
          · cases h
          · next hdigest =>
            obtain ⟨_, hentries, hdetail⟩ := map_eq_ok.mp h
            exact ⟨content, found, ⟨hcontent, hfound, ⟨sidecar, hsidecar, not_not.mp hdigest⟩,
              fun entry hentry => verifyEntry_eq_ok (verifyEntries_eq_ok hentries hentry)⟩,
              not_not.mp hversion, hentries, hdetail.symm⟩

theorem verifyArchive_of_holds {directory : String} {files : ObjectKey → Option FileBytes}
    {content : FileBytes} {found : Manifest} (h : Holds format directory files content found)
    (hversion : found.source.archiveSchemaVersion = 2)
    (hentries : verifyEntries format files found = .ok ()) :
    verifyArchive format directory files =
      .ok (verificationDetail found (format.sha256 content)) := by
  obtain ⟨sidecar, hsidecar, hdigest⟩ := h.sidecar
  simp [verifyArchive, h.manifest, h.reads, hversion, hsidecar, hdigest, hentries, Except.map]

namespace SourceArchive
variable (archive : SourceArchive format)

theorem holds : ∃ content found,
    Holds format archive.directory archive.files content found ∧
      archive.manifest = some found ∧
      archive.ordered = found.entries.map (fun entry => .data entry.file) ++
        [.sidecar archive.directory, .manifest archive.directory] ∧
      verifyEntries format archive.files found = .ok () ∧
      found.source.archiveSchemaVersion = 2 ∧
      archive.verification = verificationDetail found (format.sha256 content) := by
  obtain ⟨content, found, hholds, hversion, hentries, hdetail⟩ :=
    verifyArchive_eq_ok archive.verified
  have hmanifest : archive.manifest = some found := by
    simp [manifest, hholds.manifest, hholds.reads]
  exact ⟨content, found, hholds, hmanifest, by simp [ordered, hmanifest], hentries, hversion,
    hdetail⟩

/-- A verified archive has every file that a call copies. -/
theorem exists_content {key : ObjectKey} (h : key ∈ archive.ordered) :
    ∃ content, archive.files key = some content := by
  obtain ⟨content, found, hholds, _, hordered, _⟩ := archive.holds
  rw [hordered] at h
  simp only [List.mem_append, List.mem_map, List.mem_cons, List.not_mem_nil, or_false] at h
  obtain ⟨entry, hentry, rfl⟩ | rfl | rfl := h
  · obtain ⟨data, hdata, _⟩ := hholds.data entry hentry
    exact ⟨data, hdata⟩
  · obtain ⟨sidecar, hsidecar, _⟩ := hholds.sidecar
    exact ⟨sidecar, hsidecar⟩
  · exact ⟨content, hholds.manifest⟩

/-- The manifest comes last: what precedes it is everything else. -/
theorem done_of_manifest {archive : SourceArchive format} {directory : String}
    {done remaining : List ObjectKey}
    (h : archive.ordered = done ++ .manifest directory :: remaining) :
    directory = archive.directory ∧
      ∀ key ∈ archive.ordered, key ∈ done ∨ key = .manifest directory := by
  have hmem : ObjectKey.manifest directory ∈ archive.ordered := by simp [h]
  have hdirectory : directory = archive.directory := by simpa [ordered] using hmem
  have hremaining : remaining = [] := by
    by_contra hne
    have hdrop := congrArg List.dropLast h
    have hinit : archive.ordered.dropLast =
        ((archive.manifest.map (·.entries)).getD []).map (fun entry => .data entry.file) ++
          [.sidecar archive.directory] := by
      simp [ordered, List.dropLast_append_of_ne_nil]
    rw [List.dropLast_append_of_ne_nil (by simp), List.dropLast_cons_of_ne_nil hne, hinit] at hdrop
    have hbefore : ObjectKey.manifest directory ∈
        ((archive.manifest.map (·.entries)).getD []).map (fun entry => ObjectKey.data entry.file) ++
          [.sidecar archive.directory] := by simp [hdrop]
    simp at hbefore
  refine ⟨hdirectory, fun key hkey => ?_⟩
  rw [h, hremaining] at hkey
  simpa using hkey

end SourceArchive

/-! ### The store under archives that agree -/

/-- No two archives hold different files under one path. -/
def AgreeOnSharedKeys (archives : Set (SourceArchive format)) : Prop :=
  ∀ a ∈ archives, ∀ b ∈ archives, ∀ key ∈ a.ordered, key ∈ b.ordered → a.files key = b.files key

/-- What the store holds, it still holds, with its content. -/
def KeepsObjects (s s' : CopySystem format) : Prop :=
  ∀ key content, s.objects key = some content → s'.objects key = some content

def StoredAll (objects : ObjectKey → Option FileBytes) (keys : List ObjectKey) : Prop :=
  ∀ key ∈ keys, (objects key).isSome

/-- The file that a call copies comes from its archive, and what it has copied is stored. -/
def Copying (archive : SourceArchive format) (objects : ObjectKey → Option FileBytes)
    (file : SourceFile) (remaining : List ObjectKey) : Prop :=
  archive.files file.key = some file.content ∧
    ∃ done, archive.ordered = done ++ file.key :: remaining ∧ StoredAll objects done

def Copied (archive : SourceArchive format) (objects : ObjectKey → Option FileBytes)
    (remaining : List ObjectKey) : Prop :=
  ∃ done, archive.ordered = done ++ remaining ∧ StoredAll objects done

def CopyPhase.Sound (archive : SourceArchive format) (objects : ObjectKey → Option FileBytes) :
    CopyPhase → Prop
  | .putting remaining | .measuring _ remaining | .readingBack _ remaining =>
    Copied archive objects remaining
  | .comparing file remaining =>
    Copying archive objects file remaining ∧ (objects file.key).isSome
  | .staging file remaining _ => Copying archive objects file remaining
  | .replacing file remaining written => Copying archive objects file remaining ∧
    format.sha256 written = format.sha256 file.content
  | _ => True

/-- Every object is a file of an archive, and a manifest comes with the files of its archive. -/
structure CopyInvariant (archives : Set (SourceArchive format)) (s : CopySystem format) :
    Prop where
  runs : ∀ token run, s.runs token = some run →
    run.call.archive ∈ archives ∧ run.phase.Sound run.call.archive s.objects
  stored : ∀ key content, s.objects key = some content →
    ∃ archive ∈ archives, key ∈ archive.ordered ∧ archive.files key = some content
  complete : ∀ directory content, s.objects (.manifest directory) = some content →
    ∃ archive ∈ archives, archive.directory = directory ∧
      archive.files (.manifest directory) = some content ∧ StoredAll s.objects archive.ordered

section Invariant
variable {archives : Set (SourceArchive format)} {s : CopySystem format} {token : Uuid}
  {call : CopyCall format} {phase : CopyPhase}

theorem StoredAll.mono {objects objects' : ObjectKey → Option FileBytes} {keys : List ObjectKey}
    (hmono : ∀ key, (objects key).isSome → (objects' key).isSome) (h : StoredAll objects keys) :
    StoredAll objects' keys := fun key hkey => hmono key (h key hkey)

theorem CopyPhase.Sound.mono {archive : SourceArchive format}
    {objects objects' : ObjectKey → Option FileBytes}
    (hmono : ∀ key, (objects key).isSome → (objects' key).isSome)
    (h : phase.Sound archive objects) : phase.Sound archive objects' := by
  have hcopied {remaining : List ObjectKey} (hdone : Copied archive objects remaining) :
      Copied archive objects' remaining := by
    obtain ⟨done, hordered, hstored⟩ := hdone
    exact ⟨done, hordered, hstored.mono hmono⟩
  have hcopying {file : SourceFile} {remaining : List ObjectKey}
      (hfile : Copying archive objects file remaining) :
      Copying archive objects' file remaining := by
    obtain ⟨hcontent, done, hordered, hstored⟩ := hfile
    exact ⟨hcontent, done, hordered, hstored.mono hmono⟩
  cases phase with
  | putting remaining => exact hcopied h
  | measuring file remaining => exact hcopied h
  | readingBack file remaining => exact hcopied h
  | comparing file remaining => exact ⟨hcopying h.1, hmono _ h.2⟩
  | staging file remaining written => exact hcopying h
  | replacing file remaining written => exact ⟨hcopying h.1, h.2⟩
  | _ => trivial

theorem CopyInvariant.enter (h : CopyInvariant archives s) (hcall : call.archive ∈ archives)
    (hphase : phase.Sound call.archive s.objects) :
    CopyInvariant archives (s.enter token call phase) where
  runs other run hrun := by
    by_cases hother : other = token
    · subst hother
      simp only [CopySystem.enter, Function.update_self, Option.some.injEq] at hrun
      subst hrun
      exact ⟨hcall, hphase⟩
    · simp only [CopySystem.enter, Function.update_of_ne hother] at hrun
      exact h.runs other run hrun
  stored := h.stored
  complete := h.complete

theorem CopyInvariant.setCatalog (h : CopyInvariant archives s) (database : String)
    (scopeId : Uuid) (catalog : Catalog) :
    CopyInvariant archives (s.setCatalog database scopeId catalog) where
  runs := h.runs
  stored := h.stored
  complete := h.complete

/-- A file is put under its path: where the archives agree, nothing else is stored there. -/
theorem CopyInvariant.put (h : CopyInvariant archives s) (hagree : AgreeOnSharedKeys archives)
    {archive : SourceArchive format} (harchive : archive ∈ archives) {key : ObjectKey}
    {content : FileBytes} (hcontent : archive.files key = some content)
    {done remaining : List ObjectKey} (hordered : archive.ordered = done ++ key :: remaining)
    (hdone : StoredAll s.objects done) :
    CopyInvariant archives { s with objects := Function.update s.objects key (some content) } ∧
      KeepsObjects s { s with objects := Function.update s.objects key (some content) } := by
  have hkey : key ∈ archive.ordered := by simp [hordered]
  have hmono : ∀ other, (s.objects other).isSome →
      (Function.update s.objects key (some content) other).isSome := by
    intro other hother
    by_cases heq : other = key
    · simp [heq]
    · rwa [Function.update_of_ne heq]
  constructor
  · constructor
    · intro token run hrun
      obtain ⟨hmem, hsound⟩ := h.runs token run hrun
      exact ⟨hmem, hsound.mono hmono⟩
    · intro other found hfound
      by_cases heq : other = key
      · subst heq
        simp only [Function.update_self, Option.some.injEq] at hfound
        exact ⟨archive, harchive, hkey, hfound ▸ hcontent⟩
      · simp only [Function.update_of_ne heq] at hfound
        exact h.stored other found hfound
    · intro directory found hfound
      by_cases heq : ObjectKey.manifest directory = key
      · subst heq
        simp only [Function.update_self, Option.some.injEq] at hfound
        obtain ⟨hdirectory, hbefore⟩ := SourceArchive.done_of_manifest hordered
        refine ⟨archive, harchive, hdirectory.symm, hfound ▸ hcontent, fun other hother => ?_⟩
        obtain hstored | hlast := hbefore other hother
        · exact hmono other (hdone other hstored)
        · simp [hlast]
      · simp only [Function.update_of_ne heq] at hfound
        obtain ⟨owner, howner, hdirectory, hmanifest, hall⟩ := h.complete directory found hfound
        exact ⟨owner, howner, hdirectory, hmanifest, hall.mono hmono⟩
  · intro other found hfound
    by_cases heq : other = key
    · subst heq
      obtain ⟨owner, howner, hshared, hsame⟩ := h.stored other found hfound
      have hagreed := hagree archive harchive owner howner other hkey hshared
      simp only [Function.update_self]
      rw [← hcontent, hagreed, hsame]
    · simpa only [Function.update_of_ne heq] using hfound

theorem CopyInvariant.stop (h : CopyInvariant archives s)
    (hphase : ∀ (archive : SourceArchive format) objects, phase.Sound archive objects) :
    CopyInvariant archives (stopCopy token phase s) ∧
      KeepsObjects s (stopCopy token phase s) := by
  unfold stopCopy
  split
  · exact ⟨h, fun _ _ hkey => hkey⟩
  · exact ⟨h, fun _ _ hkey => hkey⟩
  · exact ⟨h, fun _ _ hkey => hkey⟩
  · exact ⟨h, fun _ _ hkey => hkey⟩
  · next call _ hrun =>
    exact ⟨h.enter (h.runs token _ hrun).1 (hphase _ _), fun _ _ hkey => hkey⟩

theorem CopyInvariant.advance (h : CopyInvariant archives s) (hagree : AgreeOnSharedKeys archives)
    (location : String) (token : Uuid) :
    CopyInvariant archives (advanceCopy location token s) ∧
      KeepsObjects s (advanceCopy location token s) := by
  have hkeeps : KeepsObjects s s := fun _ _ hkey => hkey
  unfold advanceCopy
  split
  · exact ⟨h, hkeeps⟩
  · next call phase hrun =>
    obtain ⟨hcall, hsound⟩ := h.runs token _ hrun
    have hraised (message : String) :
        CopyInvariant archives (s.enter token call (.raised message)) := h.enter hcall trivial
    cases phase with
    | verifying =>
      dsimp only
      split
      · exact ⟨hraised _, hkeeps⟩
      · split
        · exact ⟨hraised _, hkeeps⟩
        · exact ⟨h.enter hcall ⟨[], rfl, fun _ hkey => absurd hkey (by simp)⟩, hkeeps⟩
    | putting remaining =>
      cases remaining with
      | nil => exact ⟨h.enter hcall trivial, hkeeps⟩
      | cons key remaining =>
        dsimp only
        split
        · exact ⟨hraised _, hkeeps⟩
        · next content hcontent =>
          split
          · next hexists => exact ⟨h.enter hcall ⟨⟨hcontent, hsound⟩, hexists⟩, hkeeps⟩
          · exact ⟨h.enter hcall ⟨hcontent, hsound⟩, hkeeps⟩
    | comparing file remaining =>
      obtain ⟨⟨hcontent, done, hordered, hdone⟩, hexists⟩ := hsound
      dsimp only
      split
      · exact ⟨hraised _, hkeeps⟩
      · split
        · exact ⟨hraised _, hkeeps⟩
        · refine ⟨h.enter hcall ⟨done ++ [file.key], by simp [hordered], ?_⟩, hkeeps⟩
          intro key hkey
          obtain hkey | hkey := List.mem_append.mp hkey
          · exact hdone key hkey
          · rwa [List.mem_singleton.mp hkey]
    | staging file remaining written =>
      dsimp only
      split
      · exact ⟨h.enter hcall hsound, hkeeps⟩
      · split
        · exact ⟨hraised _, hkeeps⟩
        · next hdigest => exact ⟨h.enter hcall ⟨hsound, not_not.mp hdigest⟩, hkeeps⟩
    | replacing file remaining written =>
      obtain ⟨⟨hcontent, done, hordered, hdone⟩, hdigest⟩ := hsound
      have hwritten : written = file.content := format.sha256_injective hdigest
      subst hwritten
      obtain ⟨hput, hkept⟩ := h.put hagree hcall hcontent hordered hdone
      refine ⟨hput.enter hcall ⟨done ++ [file.key], by simp [hordered], ?_⟩, hkept⟩
      intro key hkey
      obtain hkey | hkey := List.mem_append.mp hkey
      · obtain ⟨content, hcontent⟩ := Option.isSome_iff_exists.mp (hdone key hkey)
        rw [hkept key content hcontent]
        rfl
      · simp [List.mem_singleton.mp hkey]
    | measuring file remaining =>
      dsimp only
      split
      · exact ⟨hraised _, hkeeps⟩
      · split
        · exact ⟨hraised _, hkeeps⟩
        · exact ⟨h.enter hcall hsound, hkeeps⟩
    | readingBack file remaining =>
      dsimp only
      split
      · exact ⟨hraised _, hkeeps⟩
      · split
        · exact ⟨hraised _, hkeeps⟩
        · exact ⟨h.enter hcall hsound, hkeeps⟩
    | verifyingCopy =>
      dsimp only
      split
      · exact ⟨hraised _, hkeeps⟩
      · split
        · exact ⟨hraised _, hkeeps⟩
        · exact ⟨h.enter hcall trivial, hkeeps⟩
    | recording =>
      dsimp only
      split
      · exact ⟨hraised _, hkeeps⟩
      · split
        · exact ⟨hraised _, hkeeps⟩
        · have hreturned : CopyInvariant archives (s.enter token call .returned) :=
            h.enter hcall trivial
          exact ⟨hreturned.setCatalog _ _ _, hkeeps⟩
    | returned => exact ⟨h, hkeeps⟩
    | raised message => exact ⟨h, hkeeps⟩
    | crashed => exact ⟨h, hkeeps⟩

/-- A call copies one of the archives. -/
def CopiesOf (archives : Set (SourceArchive format)) : CopyAction format → Prop
  | .start _ call => call.archive ∈ archives
  | _ => True

theorem CopyInvariant.step (h : CopyInvariant archives s) (hagree : AgreeOnSharedKeys archives)
    (location : String) {action : CopyAction format} (hcopies : CopiesOf archives action) :
    CopyInvariant archives (copyStep location s action) ∧
      KeepsObjects s (copyStep location s action) := by
  have hkeeps : KeepsObjects s s := fun _ _ hkey => hkey
  cases action with
  | start token call =>
    simp only [copyStep]
    split
    · exact ⟨h, hkeeps⟩
    · exact ⟨h.enter hcopies trivial, hkeeps⟩
  | advance token => exact h.advance hagree location token
  | interrupt token message => exact h.stop fun _ _ => trivial
  | crash token => exact h.stop fun _ _ => trivial
  | recatalog database scopeId catalog => exact ⟨h.setCatalog database scopeId catalog, hkeeps⟩

theorem copyInvariant_empty (catalogs : String → Uuid → Catalog) :
    CopyInvariant archives (emptyStore catalogs) where
  runs _ _ h := by cases h
  stored _ _ h := by cases h
  complete _ _ h := by cases h

/-- A manifest in the store comes with its sidecar and the data files that it lists. -/
def ManifestsComplete (s : CopySystem format) : Prop :=
  ∀ directory content, s.objects (.manifest directory) = some content →
    ∃ found, Holds format directory s.objects content found

theorem CopyInvariant.files (h : CopyInvariant archives s) (hagree : AgreeOnSharedKeys archives)
    {archive : SourceArchive format} (harchive : archive ∈ archives) {key : ObjectKey}
    (hkey : key ∈ archive.ordered) (hstored : (s.objects key).isSome) :
    s.objects key = archive.files key := by
  obtain ⟨content, hcontent⟩ := Option.isSome_iff_exists.mp hstored
  obtain ⟨owner, howner, hshared, hsame⟩ := h.stored key content hcontent
  rw [hcontent, hagree archive harchive owner howner key hkey hshared, hsame]

theorem CopyInvariant.manifestsComplete (h : CopyInvariant archives s)
    (hagree : AgreeOnSharedKeys archives) : ManifestsComplete s := by
  intro directory content hcontent
  obtain ⟨archive, harchive, hdirectory, hmanifest, hall⟩ := h.complete directory content hcontent
  subst hdirectory
  obtain ⟨manifest, found, hholds, _, hordered, _⟩ := archive.holds
  have hsame : manifest = content := by
    have := hholds.manifest
    rw [hmanifest] at this
    exact (Option.some.inj this).symm
  subst hsame
  have hfiles (key : ObjectKey) (hkey : key ∈ archive.ordered) :
      s.objects key = archive.files key := h.files hagree harchive hkey (hall key hkey)
  refine ⟨found, hcontent, hholds.reads, ?_, fun entry hentry => ?_⟩
  · rw [hfiles _ (by simp [hordered])]
    exact hholds.sidecar
  · have hlisted : ObjectKey.data entry.file ∈ archive.ordered := by
      rw [hordered]
      exact List.mem_append_left _ (List.mem_map.mpr ⟨entry, hentry, rfl⟩)
    rw [hfiles _ hlisted]
    exact hholds.data entry hentry

end Invariant

/-! ### Calls that nothing interrupts -/

/-- What a call's own steps lead to. -/
def Alone (location : String) (token : Uuid) (s s' : CopySystem format) : Prop :=
  ∃ n, run (copyStep location) s (List.replicate n (.advance token)) = s'

namespace Alone
variable {location : String} {token : Uuid} {s s' s'' : CopySystem format}

theorem refl (s : CopySystem format) : Alone location token s s := ⟨0, rfl⟩

theorem trans (h : Alone location token s s') (h' : Alone location token s' s'') :
    Alone location token s s'' := by
  obtain ⟨n, hn⟩ := h
  obtain ⟨m, hm⟩ := h'
  refine ⟨n + m, ?_⟩
  rw [List.replicate_add, run_append, hn, hm]

theorem head (h : advanceCopy location token s = s') (h' : Alone location token s' s'') :
    Alone location token s s'' := trans ⟨1, h⟩ h'

end Alone

/-- A call that stands in a phase, over the objects given. -/
def CopySystem.moved (s : CopySystem format) (token : Uuid) (call : CopyCall format)
    (phase : CopyPhase) (objects : ObjectKey → Option FileBytes) : CopySystem format :=
  { s with objects, runs := Function.update s.runs token (some ⟨call, phase⟩) }

/-- The objects once the files of an archive under the keys are there. -/
def overlay (archive : SourceArchive format) (keys : List ObjectKey)
    (objects : ObjectKey → Option FileBytes) (key : ObjectKey) : Option FileBytes :=
  if key ∈ keys then archive.files key else objects key

section Alone
variable {location : String} {token : Uuid} {s : CopySystem format} {call : CopyCall format}
  {objects : ObjectKey → Option FileBytes}

@[simp] theorem moved_runs (phase : CopyPhase) :
    (s.moved token call phase objects).runs token = some ⟨call, phase⟩ := by
  simp [CopySystem.moved]

@[simp] theorem moved_objects (phase : CopyPhase) :
    (s.moved token call phase objects).objects = objects := rfl

@[simp] theorem moved_enter (phase phase' : CopyPhase) :
    (s.moved token call phase objects).enter token call phase' =
      s.moved token call phase' objects := by
  simp [CopySystem.moved, CopySystem.enter]

/-- The blocks of a file are written, and the staged file passes its check. -/
theorem alone_staging (file : SourceFile) (remaining : List ObjectKey) (size : Nat) :
    ∀ written rest : FileBytes, file.content = written ++ rest → rest.length ≤ size →
      Alone location token (s.moved token call (.staging file remaining written) objects)
        (s.moved token call (.replacing file remaining file.content) objects) := by
  induction size with
  | zero =>
    intro written rest hcontent hsize
    have hrest : rest = [] := List.eq_nil_of_length_eq_zero (by omega)
    have hwritten : written = file.content := by simp [hcontent, hrest]
    subst hwritten
    exact .head (by simp [advanceCopy]) (.refl _)
  | succ size ih =>
    intro written rest hcontent hsize
    by_cases hrest : rest = []
    · have hwritten : written = file.content := by simp [hcontent, hrest]
      subst hwritten
      exact .head (by simp [advanceCopy]) (.refl _)
    · have hpos := List.length_pos_of_ne_nil hrest
      have hblock : 0 < blockBytes := by simp [blockBytes]
      have hnext := ih (written ++ rest.take blockBytes) (rest.drop blockBytes)
        (by simp [hcontent]) (by rw [List.length_drop]; omega)
      refine .head ?_ hnext
      simp [advanceCopy, hcontent, hpos]

/-- A file that is stored passes the checks of its length and its digest. -/
theorem alone_reading {file : SourceFile} (remaining : List ObjectKey)
    (hstored : objects file.key = some file.content) :
    Alone location token (s.moved token call (.measuring file remaining) objects)
      (s.moved token call (.putting remaining) objects) := by
  have hmeasured : advanceCopy location token
      (s.moved token call (.measuring file remaining) objects) =
        s.moved token call (.readingBack file remaining) objects := by
    simp [advanceCopy, hstored]
  have hread : advanceCopy location token
      (s.moved token call (.readingBack file remaining) objects) =
        s.moved token call (.putting remaining) objects := by
    simp [advanceCopy, hstored]
  exact .head hmeasured (.head hread (.refl _))

/-- A file whose path is free is staged and checked, up to its rename. -/
theorem alone_stage {key : ObjectKey} (remaining : List ObjectKey) {content : FileBytes}
    (hcontent : call.archive.files key = some content) (hfree : objects key = none) :
    Alone location token (s.moved token call (.putting (key :: remaining)) objects)
      (s.moved token call (.replacing ⟨key, content⟩ remaining content) objects) := by
  have hopened : advanceCopy location token
      (s.moved token call (.putting (key :: remaining)) objects) =
        s.moved token call (.staging ⟨key, content⟩ remaining []) objects := by
    simp [advanceCopy, hcontent, hfree]
  exact .head hopened (alone_staging ⟨key, content⟩ remaining content.length [] content rfl le_rfl)

theorem advance_replacing (file : SourceFile) (remaining : List ObjectKey) (written : FileBytes) :
    advanceCopy location token (s.moved token call (.replacing file remaining written) objects) =
      s.moved token call (.measuring file remaining)
        (Function.update objects file.key (some written)) := by
  simp [advanceCopy, CopySystem.moved, CopySystem.enter]

/-- A file is put, whether its path is free or already holds it. -/
theorem alone_put {key : ObjectKey} (remaining : List ObjectKey) {content : FileBytes}
    (hcontent : call.archive.files key = some content)
    (hobject : objects key = none ∨ objects key = some content) :
    Alone location token (s.moved token call (.putting (key :: remaining)) objects)
      (s.moved token call (.putting remaining)
        (Function.update objects key (some content))) := by
  obtain hfree | hsame := hobject
  · exact (alone_stage remaining hcontent hfree).trans
      (.head (advance_replacing ⟨key, content⟩ remaining content)
        (alone_reading remaining (by simp)))
  · have hupdate : Function.update objects key (some content) = objects := by
      rw [← hsame, Function.update_eq_self]
    have hfound : advanceCopy location token
        (s.moved token call (.putting (key :: remaining)) objects) =
          s.moved token call (.comparing ⟨key, content⟩ remaining) objects := by
      simp [advanceCopy, hcontent, hsame]
    have hcompared : advanceCopy location token
        (s.moved token call (.comparing ⟨key, content⟩ remaining) objects) =
          s.moved token call (.measuring ⟨key, content⟩ remaining) objects := by
      simp [advanceCopy, hsame]
    rw [hupdate]
    exact .head hfound (.head hcompared (alone_reading remaining hsame))

/-- The first files of an archive are put, where the store holds nothing else under their paths. -/
theorem alone_putting (rest : List ObjectKey) :
    ∀ (keys : List ObjectKey) (objects : ObjectKey → Option FileBytes),
      (∀ key ∈ keys, key ∈ call.archive.ordered) →
      (∀ key ∈ keys, objects key = none ∨ objects key = call.archive.files key) →
      Alone location token (s.moved token call (.putting (keys ++ rest)) objects)
        (s.moved token call (.putting rest) (overlay call.archive keys objects)) := by
  intro keys
  induction keys with
  | nil =>
    intro objects _ _
    exact .refl _
  | cons key keys ih =>
    intro objects hordered hobjects
    obtain ⟨content, hcontent⟩ := call.archive.exists_content (hordered key (by simp))
    have hfirst : Alone location token
        (s.moved token call (.putting (key :: (keys ++ rest))) objects)
        (s.moved token call (.putting (keys ++ rest))
          (Function.update objects key (some content))) := by
      apply alone_put _ hcontent
      rw [← hcontent]
      exact hobjects key (by simp)
    have hothers := ih (Function.update objects key (some content))
      (fun other hother => hordered other (by simp [hother])) (by
        intro other hother
        by_cases heq : other = key
        · subst heq
          simp [hcontent]
        · rw [Function.update_of_ne heq]
          exact hobjects other (by simp [hother]))
    have hoverlay : overlay call.archive keys (Function.update objects key (some content)) =
        overlay call.archive (key :: keys) objects := by
      funext other
      by_cases heq : other = key
      · subst heq
        simp [overlay, hcontent]
      · simp [overlay, heq]
    rw [hoverlay] at hothers
    exact hfirst.trans hothers

/-- A call starts, passes the verification of its archive, and puts the first files. -/
theorem alone_start {archive : SourceArchive format} (hcall : call.archive = archive)
    (hindependent : call.copyRole = .secondary → call.independenceAsserted = true)
    {keys rest : List ObjectKey} (hordered : archive.ordered = keys ++ rest)
    (hobjects : ∀ key ∈ keys, s.objects key = none ∨ s.objects key = archive.files key) :
    Alone location token (s.enter token call .verifying)
      (s.moved token call (.putting rest) (overlay archive keys s.objects)) := by
  subst hcall
  have hverified : advanceCopy location token (s.enter token call .verifying) =
      s.moved token call (.putting (keys ++ rest)) s.objects := by
    have hasserted : ¬ (call.copyRole = .secondary ∧ call.independenceAsserted = false) := by
      intro h
      rw [hindependent h.1] at h
      exact absurd h.2 (by simp)
    rw [← hordered]
    simp [advanceCopy, CopySystem.enter, CopySystem.moved, hasserted, call.archive.verified]
  exact .head hverified (alone_putting rest keys s.objects
    (fun key hkey => by simp [hordered, hkey]) hobjects)

/-- The copy of an archive passes the verification that the archive has passed. -/
theorem verifyArchive_overlay (archive : SourceArchive format) :
    verifyArchive format archive.directory (overlay archive archive.ordered objects) =
      .ok archive.verification := by
  obtain ⟨content, found, hholds, _, hordered, hentries, hversion, hdetail⟩ := archive.holds
  have hcopied (key : ObjectKey) (hkey : key ∈ archive.ordered) :
      overlay archive archive.ordered objects key = archive.files key := by
    simp [overlay, hkey]
  have hlisted {entry : ManifestEntry} (hentry : entry ∈ found.entries) :
      ObjectKey.data entry.file ∈ archive.ordered := by
    rw [hordered]
    exact List.mem_append_left _ (List.mem_map.mpr ⟨entry, hentry, rfl⟩)
  rw [hdetail]
  apply verifyArchive_of_holds _ hversion
  · rw [verifyEntries_congr fun entry hentry => hcopied _ (hlisted hentry)]
    exact hentries
  · refine ⟨?_, hholds.reads, ?_, fun entry hentry => ?_⟩
    · rw [hcopied _ (by simp [hordered])]
      exact hholds.manifest
    · rw [hcopied _ (by simp [hordered])]
      exact hholds.sidecar
    · rw [hcopied _ (hlisted hentry)]
      exact hholds.data entry hentry

theorem recordCopyVerification_ok {copy : CopyVerification} {catalog : Catalog}
    {scope : ArchiveScope}
    (hindependent : copy.copyRole = .secondary → copy.independenceAsserted = true)
    (hscope : catalog.scope = some scope) (hverified : scope.state.IsVerified)
    (hmanifest : scope.manifestSha256 = some copy.manifestSha256)
    (haggregate : scope.aggregateFileSha256 = some copy.aggregateFileSha256)
    (hcopies : ∀ row, catalog.copies.find? copy.identity = some row →
      row.manifestSha256 = copy.manifestSha256) :
    ∃ catalog', recordCopyVerification copy catalog = .ok catalog' := by
  have hasserted : ¬ (copy.copyRole = .secondary ∧ copy.independenceAsserted = false) := by
    intro h
    rw [hindependent h.1] at h
    exact absurd h.2 (by simp)
  have hrecorded : ((catalog.copies.insertNew copy).find? copy.identity).map (·.manifestSha256) =
      some copy.manifestSha256 := by
    rw [Table.find?_insertNew]
    cases hfound : catalog.copies.find? copy.identity with
    | none => simp
    | some row => simp [hcopies row hfound]
  simp [recordCopyVerification, hasserted, hscope, hverified, hmanifest, haggregate, hrecorded]

end Alone

/-- The source archive is as it was catalogued, and its copies too. -/
structure Recordable (location : String) (call : CopyCall format) (s : CopySystem format) :
    Prop where
  independent : call.copyRole = .secondary → call.independenceAsserted = true
  catalogued : ∀ found, call.archive.manifest = some found →
    ∃ scope, (s.catalogs call.archive.database found.source.id).scope = some scope ∧
      scope.state.IsVerified ∧
      scope.manifestSha256 = some call.archive.verification.manifestSha256 ∧
      scope.aggregateFileSha256 = some call.archive.verification.aggregateFileSha256
  copies : ∀ found row, call.archive.manifest = some found →
    (s.catalogs call.archive.database found.source.id).copies.find?
      (copyVerification location call).identity = some row →
    row.manifestSha256 = call.archive.verification.manifestSha256

/-- A call that nothing interrupts returns. -/
def Succeeds (location : String) (token : Uuid) (call : CopyCall format)
    (s : CopySystem format) : Prop :=
  ∃ n, ((run (copyStep location) s (.start token call :: List.replicate n (.advance token))).runs
    token).map (·.phase) = some .returned

theorem succeeds {archives : Set (SourceArchive format)} {s : CopySystem format}
    (h : CopyInvariant archives s) (hagree : AgreeOnSharedKeys archives) {location : String}
    {token : Uuid} {call : CopyCall format} (hcall : call.archive ∈ archives)
    (hfree : s.runs token = none) (hrecordable : Recordable location call s) :
    Succeeds location token call s := by
  have hobjects : ∀ key ∈ call.archive.ordered,
      s.objects key = none ∨ s.objects key = call.archive.files key := by
    intro key hkey
    cases hstored : s.objects key with
    | none => exact .inl rfl
    | some content =>
      rw [← hstored]
      exact .inr (h.files hagree hcall hkey (by simp [hstored]))
  have hput : Alone location token (s.enter token call .verifying)
      (s.moved token call (.putting []) (overlay call.archive call.archive.ordered s.objects)) :=
    alone_start rfl hrecordable.independent (by simp) hobjects
  generalize hcopied : overlay call.archive call.archive.ordered s.objects = copied at hput
  have hverify : advanceCopy location token (s.moved token call (.putting []) copied) =
      s.moved token call .verifyingCopy copied := by
    simp [advanceCopy]
  have hverified : advanceCopy location token (s.moved token call .verifyingCopy copied) =
      s.moved token call .recording copied := by
    simp [advanceCopy, ← hcopied, verifyArchive_overlay]
  obtain ⟨content, found, _, hmanifest, _⟩ := call.archive.holds
  obtain ⟨scope, hscope, hstate, hsha256, haggregate⟩ := hrecordable.catalogued found hmanifest
  obtain ⟨catalog, hcatalog⟩ : ∃ catalog, recordCopyVerification (copyVerification location call)
      (s.catalogs call.archive.database found.source.id) = .ok catalog :=
    recordCopyVerification_ok hrecordable.independent hscope hstate hsha256 haggregate
      fun row hrow => hrecordable.copies found row hmanifest hrow
  have hrecorded : advanceCopy location token (s.moved token call .recording copied) =
      (s.moved token call .returned copied).setCatalog call.archive.database found.source.id
        catalog := by
    have hcatalogs : (s.moved token call .recording copied).catalogs = s.catalogs := rfl
    simp [advanceCopy, hmanifest, hcatalogs, hcatalog]
  obtain ⟨n, hn⟩ := hput.trans (.head hverify (.head hverified (.head hrecorded (.refl _))))
  refine ⟨n, ?_⟩
  have hstart : copyStep location s (.start token call) = s.enter token call .verifying := by
    simp [copyStep, hfree]
  show ((run (copyStep location) (copyStep location s (.start token call)) _).runs token).map _ = _
  rw [hstart, hn]
  simp [CopySystem.setCatalog, CopySystem.moved]

/-! ### Two archives that disagree -/

/-- A call that copies an archive on its own behalf. -/
def primaryCall (archive : SourceArchive format) : CopyCall format where
  archive := archive
  copyRole := .primary
  independenceAsserted := false
  independenceDetail := none
  verifiedAt := 0

/-- The first path under which two archives disagree. -/
theorem exists_first_conflict {a b : SourceArchive format} {key : ObjectKey}
    (hkeya : key ∈ a.ordered) (hkeyb : key ∈ b.ordered) (hne : a.files key ≠ b.files key) :
    ∃ before first after, a.ordered = before ++ first :: after ∧ first ∈ b.ordered ∧
      a.files first ≠ b.files first ∧
      ∀ other ∈ before, other ∈ b.ordered → a.files other = b.files other := by
  let p := fun key => decide (key ∈ b.ordered ∧ a.files key ≠ b.files key)
  obtain ⟨first, hfirst⟩ : ∃ first, a.ordered.find? p = some first := by
    rw [← Option.isSome_iff_exists, List.find?_isSome]
    exact ⟨key, hkeya, by simp [p, hkeyb, hne]⟩
  obtain ⟨hconflict, before, after, hordered, hbefore⟩ := List.find?_eq_some_iff_append.mp hfirst
  simp only [p, decide_eq_true_eq] at hconflict
  refine ⟨before, first, after, hordered, hconflict.1, hconflict.2, fun other hother hshared => ?_⟩
  by_contra hdiffers
  have hnot := hbefore other hother
  simp [p, hshared, hdiffers] at hnot

/-- Two calls that have both found a path free: the later rename replaces what the earlier one
has published. -/
theorem exists_replaced {archives : Set (SourceArchive format)} {location : String}
    (catalogs : String → Uuid → Catalog) {a b : SourceArchive format} (ha : a ∈ archives)
    (hb : b ∈ archives) {key : ObjectKey} (hkeya : key ∈ a.ordered) (hkeyb : key ∈ b.ordered)
    (hne : a.files key ≠ b.files key) :
    ∃ actions, (∀ action ∈ actions, CopiesOf archives action) ∧
      ¬ KeepsObjects (run (copyStep location) (emptyStore catalogs) actions)
        (copyStep location (run (copyStep location) (emptyStore catalogs) actions)
          (.advance 0)) := by
  obtain ⟨before, first, after, horderA, hfirstb, hconflict, hagreed⟩ :=
    exists_first_conflict hkeya hkeyb hne
  obtain ⟨beforeB, afterB, horderB, hfresh⟩ := List.eq_append_cons_of_mem hfirstb
  obtain ⟨contentA, hcontentA⟩ := a.exists_content (show first ∈ a.ordered by simp [horderA])
  obtain ⟨contentB, hcontentB⟩ := b.exists_content hfirstb
  -- the call on `b` stops before its rename
  let s0 : CopySystem format := emptyStore catalogs
  let objectsB := overlay b beforeB s0.objects
  have hfree : objectsB first = none := by simp [objectsB, overlay, hfresh, s0, emptyStore]
  have hputB : Alone location 0 (s0.enter 0 (primaryCall b) .verifying)
      (s0.moved 0 (primaryCall b) (.putting (first :: afterB)) objectsB) :=
    alone_start rfl (by simp [primaryCall]) horderB (by simp [s0, emptyStore])
  obtain ⟨n, hn⟩ := hputB.trans (alone_stage afterB hcontentB hfree)
  let s1 := s0.moved 0 (primaryCall b) (.replacing ⟨first, contentB⟩ afterB contentB) objectsB
  -- the call on `a` publishes its file
  have hobjects : ∀ other ∈ before, s1.objects other = none ∨ s1.objects other = a.files other := by
    intro other hother
    by_cases hmem : other ∈ beforeB
    · right
      have hshared : other ∈ b.ordered := by simp [horderB, hmem]
      simp [s1, objectsB, overlay, hmem, hagreed other hother hshared]
    · left
      simp [s1, objectsB, overlay, hmem, s0, emptyStore]
  have hnot : first ∉ before := fun hmem => hconflict (hagreed first hmem hfirstb)
  have hputA : Alone location 1 (s1.enter 1 (primaryCall a) .verifying)
      (s1.moved 1 (primaryCall a) (.putting (first :: after)) (overlay a before s1.objects)) :=
    alone_start rfl (by simp [primaryCall]) horderA hobjects
  obtain ⟨m, hm⟩ := hputA.trans
    (alone_put after hcontentA (.inl (by simp [overlay, hnot, s1, hfree])))
  refine ⟨(.start 0 (primaryCall b) :: List.replicate n (.advance 0)) ++
    (.start 1 (primaryCall a) :: List.replicate m (.advance 1)), ?_, ?_⟩
  · intro action haction
    simp only [List.mem_append, List.mem_cons, List.mem_replicate] at haction
    obtain (rfl | ⟨_, rfl⟩) | rfl | ⟨_, rfl⟩ := haction
    · exact hb
    · trivial
    · exact ha
    · trivial
  · have hfirst : run (copyStep location) s0
        (.start 0 (primaryCall b) :: List.replicate n (.advance 0)) = s1 := hn
    have hstart : copyStep location s1 (.start 1 (primaryCall a)) =
        s1.enter 1 (primaryCall a) .verifying := by
      simp [copyStep, s1, CopySystem.moved, s0, emptyStore]
    have hsecond : run (copyStep location) s1
        (.start 1 (primaryCall a) :: List.replicate m (.advance 1)) =
          s1.moved 1 (primaryCall a) (.putting after)
            (Function.update (overlay a before s1.objects) first (some contentA)) := by
      rw [← hm, ← hstart]
      rfl
    generalize hs2 : s1.moved 1 (primaryCall a) (.putting after)
      (Function.update (overlay a before s1.objects) first (some contentA)) = s2 at hsecond
    have hpublished : s2.objects first = some contentA := by simp [← hs2]
    have hwaiting : s2.runs 0 =
        some ⟨primaryCall b, .replacing ⟨first, contentB⟩ afterB contentB⟩ := by
      simp [← hs2, s1, CopySystem.moved]
    have hreplaced : (copyStep location s2 (.advance 0)).objects first = some contentB := by
      simp [copyStep, advanceCopy, hwaiting]
    rw [run_append, hfirst, hsecond]
    intro hkeeps
    have hkept := hkeeps first contentA hpublished
    rw [hreplaced] at hkept
    exact hconflict (by rw [hcontentA, hcontentB, hkept])

/-! ### Crash consistency -/

/-- What a run of copies leaves at every point: complete manifests, and objects that never
change, into which every archive is copied again. -/
structure CrashConsistent (location : String) (archives : Set (SourceArchive format))
    (s : CopySystem format) (actions : List (CopyAction format)) : Prop where
  complete : Always (copyStep location) ManifestsComplete s actions
  unchanged : Steps (copyStep location)
    (fun s action => KeepsObjects s (copyStep location s action)) s actions
  copiedAgain : ∀ token call, call.archive ∈ archives →
    (run (copyStep location) s actions).runs token = none →
    Recordable location call (run (copyStep location) s actions) →
    Succeeds location token call (run (copyStep location) s actions)

/-- Every run of copies is crash consistent exactly when no two of the archives hold different
files under one path. -/
theorem copies_crash_consistent_iff (location : String) (catalogs : String → Uuid → Catalog)
    (archives : Set (SourceArchive format)) :
    (∀ actions, (∀ action ∈ actions, CopiesOf archives action) →
      CrashConsistent location archives (emptyStore catalogs) actions) ↔
    AgreeOnSharedKeys archives := by
  constructor
  · intro h a ha b hb key hkeya hkeyb
    by_contra hne
    obtain ⟨actions, hactions, hlost⟩ := exists_replaced catalogs ha hb hkeya hkeyb hne
    have hconsistent := h (actions ++ [.advance 0]) (by
      intro action haction
      obtain haction | haction := List.mem_append.mp haction
      · exact hactions action haction
      · rw [List.mem_singleton.mp haction]
        trivial)
    exact hlost hconsistent.unchanged.append.2.1
  · intro hagree actions hactions
    have hallowed : Steps (copyStep location) (fun _ => CopiesOf archives) (emptyStore catalogs)
        actions := steps_of_forall hactions
    have hstep : ∀ s action, CopyInvariant archives s → CopiesOf archives action →
        CopyInvariant archives (copyStep location s action) := fun s action h haction =>
      (h.step hagree location haction).1
    have hinvariant := always_of_invariant hstep hallowed (copyInvariant_empty catalogs)
    exact {
      complete := hinvariant.mono fun s h => h.manifestsComplete hagree
      unchanged := steps_of_invariant hstep
        (fun s action h haction => (h.step hagree location haction).2) hallowed
        (copyInvariant_empty catalogs)
      copiedAgain := fun token call hcall hfree hrecordable =>
        succeeds hinvariant.final hagree hcall hfree hrecordable }

/-! ### Two exports of one scope -/

def sampleDirectory : String := "schema=v2/manifests/epoch=1/scope=a"

def sampleFile : String := "schema=v2/family=tokens/scope=a/part-00000.parquet"

/-- A digest that is the bytes as characters. -/
def byteText (bytes : FileBytes) : String := String.ofList (bytes.map Char.ofUInt8)

theorem byteText_injective : Function.Injective byteText := by
  intro bytes bytes' h
  have hchars : bytes.map Char.ofUInt8 = bytes'.map Char.ofUInt8 := String.ofList_injective h
  refine List.map_injective_iff.mpr (fun a b hab => ?_) hchars
  exact UInt8.toUInt32_inj.mp (congrArg Char.val hab)

/-- The manifests of two exports differ in the time when the export started. -/
def sampleManifest (startedAt : Nat) : Manifest where
  source := ⟨1, "a", 1, 0, 1, 2, "head", "families"⟩
  entries := [⟨sampleFile, byteText [0], 1, 1, 1⟩]
  aggregateFileSha256 := "files"
  sourceRowCount := 1
  exportedRowCount := 1
  uncompressedLogicalBytes := 1
  parquetBytes := 1
  sourceScopeFullyCovered := true
  exportStartedAt := startedAt
  exportCompletedAt := 9
  verifiedAt := 9
  configuration := ""

/-- Files of one byte: a manifest by its number, a sidecar by its text. -/
def sampleFormat : ArchiveFormat where
  sha256 := byteText
  sha256_injective := byteText_injective
  manifest bytes := bytes.head?.map fun byte => sampleManifest byte.toNat
  sidecar bytes := some (byteText bytes)
  readback _ _ := .ok ()
  integrity _ := .ok ()
  aggregateDigest _ := "files"

def sampleFiles (startedAt : UInt8) : ObjectKey → Option FileBytes
  | .data file => if file = sampleFile then some [0] else none
  | .sidecar directory | .manifest directory =>
    if directory = sampleDirectory then some [startedAt] else none

def sampleArchive (database : String) (startedAt : UInt8) : SourceArchive sampleFormat where
  database := database
  directory := sampleDirectory
  files := sampleFiles startedAt
  verification := verificationDetail (sampleManifest startedAt.toNat) (byteText [startedAt])
  verified := by
    simp [verifyArchive, verifyEntries, verifyEntry, sampleFiles, sampleFormat, sampleManifest,
      fileDigests, Except.map]
    rfl

/-- The copy of one export waits before it renames the sidecar, while the other export is copied. -/
def racingCopies : List (CopyAction sampleFormat) :=
  (.start 0 (primaryCall (sampleArchive "restored" 2)) :: List.replicate 10 (.advance 0)) ++
    (.start 1 (primaryCall (sampleArchive "production" 1)) :: List.replicate 17 (.advance 1)) ++
    [.advance 0]

theorem copies_not_crash_consistent :
    ¬ ∀ (format : ArchiveFormat) (location : String) (catalogs : String → Uuid → Catalog)
        (archives : Set (SourceArchive format)) (actions : List (CopyAction format)),
        (∀ action ∈ actions, CopiesOf archives action) →
          CrashConsistent location archives (emptyStore catalogs) actions := by
  intro h
  have hconsistent := h sampleFormat "store" (fun _ _ => emptyCatalog)
    {sampleArchive "restored" 2, sampleArchive "production" 1} racingCopies (by
      intro action haction
      simp only [racingCopies, List.mem_append, List.mem_cons, List.mem_replicate,
        List.not_mem_nil, or_false] at haction
      obtain ((rfl | ⟨_, rfl⟩) | rfl | ⟨_, rfl⟩) | rfl := haction
      · exact .inl rfl
      · trivial
      · exact .inr rfl
      · trivial
      · trivial)
  have hmanifest : (run (copyStep "store") (emptyStore fun _ _ => emptyCatalog)
      racingCopies).objects (.manifest sampleDirectory) = some [1] := by decide +kernel
  have hsidecar : (run (copyStep "store") (emptyStore fun _ _ => emptyCatalog)
      racingCopies).objects (.sidecar sampleDirectory) = some [2] := by decide +kernel
  obtain ⟨found, hholds⟩ := hconsistent.complete.final _ _ hmanifest
  obtain ⟨sidecar, hfound, hdigest⟩ := hholds.sidecar
  rw [hsidecar, Option.some.injEq] at hfound
  subst hfound
  exact absurd hdigest (by decide +kernel)

end PumpResearch.Archive
