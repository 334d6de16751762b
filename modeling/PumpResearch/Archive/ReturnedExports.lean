import PumpResearch.Archive.CatalogRuns
import PumpResearch.Archive.ManifestAgreement

/-! What the catalog holds when an export returns. A call that exports, or that takes over an
exported manifest, records its primary copy; a call that finds the scope verified records nothing,
whether or not the call before it got as far as its copy. -/
namespace PumpResearch.Archive
open KeyedTable Results Runs

/-- The scope is verified, and a primary copy has the digests of its manifest. -/
def Catalogued (catalog : Catalog) : Prop :=
  ∃ scope ∈ catalog.scope, scope.state.IsVerified ∧
    ∃ copy ∈ catalog.copies.rows, copy.copyRole = .primary ∧ copy.Matches scope

def HasPrimary (catalog : Catalog) : Prop :=
  ∃ copy ∈ catalog.copies.rows, copy.copyRole = .primary

/-- Every call that returned left the scope fully catalogued. -/
def ReturnsCatalogued (s : ArchiveSystem) : Prop :=
  ∀ token, ∀ worker ∈ s.workers token, worker.phase = .returned → Catalogued s.catalog

/-- The worker found the scope verified, and its verification is about to pass. -/
structure Reuses (site : ArchiveSite) (s : ArchiveSystem) (worker : Worker) (readback : Bool) :
    Prop where
  reused : worker.claim.previousState ≠ .exported
  passes : ∃ found expected, worker.phase = .sidecarRead none found expected ∧
    found.source.identitySha256 = site.source.identitySha256 ∧
    EntriesVerified site s.files.data found ∧
    ∃ current ∈ s.files.manifest, expected = site.manifestDigest current ∧ readback = true

/-- A call that found the scope verified passes its verification only after a primary copy has
been recorded. -/
def ReusesWithPrimary (site : ArchiveSite) (s : ArchiveSystem) : ArchiveAction → Prop
  | .finishVerify token readback =>
    ∀ worker ∈ s.workers token, Reuses site s worker readback → HasPrimary s.catalog
  | _ => True

def Phase.isReturned : Phase → Bool
  | .returned => true
  | _ => false

theorem Phase.eq_returned {phase : Phase} (h : phase.isReturned = true) : phase = .returned := by
  cases phase with
  | returned => rfl
  | _ => cases h

/-! ### What a step does to the catalog and to the workers -/

/-- The phases of a call that verifies a manifest it did not export. -/
def Phase.reuses : Phase → Bool
  | .verifying none | .manifestRead none _ | .sidecarRead none _ _ => true
  | _ => false

/-- The catalog is left alone or goes through one transaction. -/
def Transacts (before after : Catalog) : Prop :=
  after = before ∨ ∃ action, after = catalogStep before action

theorem Transacts.of_ok {α : Type} {catalog : Catalog} (action : CatalogAction)
    {catalog' : Catalog} {result : Except CatalogError α} {after : α → Catalog} {value : α}
    (hstep : catalogStep catalog action = settle catalog result after) (h : result = .ok value)
    (hafter : catalog' = after value) : Transacts catalog catalog' := by
  refine .inr ⟨action, ?_⟩
  rw [hstep, h, hafter]
  rfl

/-- What a step can do to the catalog and the workers. -/
inductive WorkersChange (site : ArchiveSite) (s : ArchiveSystem) (action : ArchiveAction) :
    ArchiveSystem → Prop where
  | same {s' : ArchiveSystem} (hworkers : s'.workers = s.workers)
      (hcatalog : Transacts s.catalog s'.catalog) : WorkersChange site s action s'
  | started {s' : ArchiveSystem} {token : Uuid} {now : Int} {claim : ArchiveClaim} {phase : Phase}
      (hclaim : claimArchiveScope site.source token now 900 s.catalog = .ok (s'.catalog, claim))
      (hworkers : s'.workers = Function.update s.workers token (some ⟨claim, phase⟩))
      (hphase : phase ≠ .returned)
      (hreuses : phase.reuses = true → claim.reusableManifestPath ≠ none) :
      WorkersChange site s action s'
  | moved {s' : ArchiveSystem} {token : Uuid} {worker : Worker} {phase : Phase}
      (hworker : s.workers token = some worker)
      (hworkers : s'.workers = Function.update s.workers token (some { worker with phase }))
      (hphase : phase ≠ .returned)
      (hreuses : phase.reuses = true → worker.phase.reuses = true)
      (hcatalog : Transacts s.catalog s'.catalog) : WorkersChange site s action s'
  | reused {s' : ArchiveSystem} {token : Uuid} {readback : Bool} {worker : Worker}
      (haction : action = .finishVerify token readback) (hworker : s.workers token = some worker)
      (hreuses : Reuses site s worker readback) (hcatalog : s'.catalog = s.catalog)
      (hworkers : s'.workers =
        Function.update s.workers token (some { worker with phase := .returned })) :
      WorkersChange site s action s'
  | recorded {s' : ArchiveSystem} {token : Uuid} {worker : Worker} {copy : CopyVerification}
      (hworker : s.workers token = some worker) (hprimary : copy.copyRole = .primary)
      (hcopy : recordCopyVerification copy s.catalog = .ok s'.catalog)
      (hworkers : s'.workers =
        Function.update s.workers token (some { worker with phase := .returned })) :
      WorkersChange site s action s'

section Inversion
variable {site : ArchiveSite} {s : ArchiveSystem} {action : ArchiveAction} {token : Uuid}

theorem change_onWorker {f : Worker → ArchiveSystem}
    (hf : ∀ worker, s.workers token = some worker → WorkersChange site s action (f worker)) :
    WorkersChange site s action (s.onWorker token f) := by
  unfold ArchiveSystem.onWorker
  split
  · exact .same rfl (.inl rfl)
  · next worker hworker => exact hf worker hworker

theorem change_advance {worker : Worker} (hworker : s.workers token = some worker) {phase : Phase}
    (hphase : phase ≠ .returned) (hreuses : phase.reuses = true → worker.phase.reuses = true)
    {t : ArchiveSystem} (ht : t.workers = s.workers) (hcatalog : Transacts s.catalog t.catalog) :
    WorkersChange site s action (t.advance token worker phase) :=
  .moved hworker (by rw [ArchiveSystem.advance, ht]) hphase hreuses hcatalog

theorem change_raise {worker : Worker} (hworker : s.workers token = some worker) :
    WorkersChange site s action (s.raise token worker) := by
  unfold ArchiveSystem.raise
  split
  · exact change_advance hworker Phase.noConfusion (fun h => by cases h) rfl (.inl rfl)
  · exact change_advance hworker Phase.noConfusion (fun h => by cases h) rfl (.inl rfl)

/-- Every step changes the workers in one of these ways. -/
theorem archiveStep_workers (site : ArchiveSite) (s : ArchiveSystem) (action : ArchiveAction) :
    WorkersChange site s action (archiveStep site s action) := by
  cases action with
  | startExport token now =>
    simp only [archiveStep, startExport]
    split
    · exact .same rfl (.inl rfl)
    · split
      · exact .same rfl (.inl rfl)
      · next catalog claim hclaim =>
        refine .started hclaim rfl ?_ ?_
        · split
          · exact Phase.noConfusion
          · exact Phase.noConfusion
        · split
          · exact fun h => by cases h
          · next hreusable => exact fun _ => hreusable
  | exportRows token startedAt entries =>
    refine change_onWorker fun worker hworker => ?_
    split
    · exact change_advance hworker Phase.noConfusion (fun h => by cases h) rfl (.inl rfl)
    · exact .same rfl (.inl rfl)
  | publishFile token =>
    refine change_onWorker fun worker hworker => ?_
    split
    · split
      · split
        · exact change_advance hworker Phase.noConfusion (fun h => by cases h) rfl (.inl rfl)
        · exact change_raise hworker
      · exact change_advance hworker Phase.noConfusion (fun h => by cases h) rfl (.inl rfl)
    · exact .same rfl (.inl rfl)
  | writeManifest token completedAt verifiedAt =>
    refine change_onWorker fun worker hworker => ?_
    split
    · exact change_advance hworker Phase.noConfusion (fun h => by cases h) rfl (.inl rfl)
    · exact .same rfl (.inl rfl)
  | hashForSidecar token =>
    refine change_onWorker fun worker hworker => ?_
    split
    · exact change_advance hworker Phase.noConfusion (fun h => by cases h) rfl (.inl rfl)
    · exact change_raise hworker
    · exact .same rfl (.inl rfl)
  | writeSidecar token =>
    refine change_onWorker fun worker hworker => ?_
    split
    · exact change_advance hworker Phase.noConfusion (fun h => by cases h) rfl (.inl rfl)
    · exact .same rfl (.inl rfl)
  | hashManifest token =>
    refine change_onWorker fun worker hworker => ?_
    split
    · exact change_advance hworker Phase.noConfusion (fun h => by cases h) rfl (.inl rfl)
    · exact change_raise hworker
    · exact .same rfl (.inl rfl)
  | readManifest token =>
    refine change_onWorker fun worker hworker => ?_
    split
    · next exported found hphase _ =>
      refine change_advance hworker Phase.noConfusion (fun h => ?_) rfl (.inl rfl)
      rw [hphase]
      cases exported with
      | none => rfl
      | some own => cases h
    · exact change_raise hworker
    · exact .same rfl (.inl rfl)
  | readSidecar token =>
    refine change_onWorker fun worker hworker => ?_
    split
    · next exported found expected hphase _ =>
      refine change_advance hworker Phase.noConfusion (fun h => ?_) rfl (.inl rfl)
      rw [hphase]
      cases exported with
      | none => rfl
      | some own => cases h
    · exact change_raise hworker
    · exact .same rfl (.inl rfl)
  | finishVerify token readback =>
    refine change_onWorker fun worker hworker => ?_
    split
    · next exported found expected current hphase hcurrent =>
      simp only
      split
      · next hpasses =>
        split
        · exact change_advance hworker Phase.noConfusion (fun h => by cases h) rfl (.inl rfl)
        · split
          · exact change_raise hworker
          · next hidentity =>
            split
            · exact change_advance hworker Phase.noConfusion (fun h => by cases h) rfl (.inl rfl)
            · next hprevious =>
              exact .reused rfl hworker ⟨hprevious, found, expected, hphase, not_not.mp hidentity,
                hpasses.2.1, current, hcurrent, hpasses.1, hpasses.2.2⟩ rfl rfl
      · exact change_raise hworker
    · exact change_raise hworker
    · exact .same rfl (.inl rfl)
  | markExported token now =>
    refine change_onWorker fun worker hworker => ?_
    split
    · next manifest digest detail hphase =>
      split
      · exact change_raise hworker
      · next catalog hmark =>
        have hmarked : Transacts s.catalog catalog :=
          .of_ok (.markExported worker.claim _ now) rfl hmark rfl
        exact change_advance hworker Phase.noConfusion (fun h => by cases h) rfl hmarked
    · exact .same rfl (.inl rfl)
  | readExisting token =>
    refine change_onWorker fun worker hworker => ?_
    split
    · exact change_advance hworker Phase.noConfusion (fun h => by cases h) rfl (.inl rfl)
    · exact change_raise hworker
    · exact .same rfl (.inl rfl)
  | markVerified token now =>
    refine change_onWorker fun worker hworker => ?_
    split
    · next verified hphase =>
      split
      · exact change_raise hworker
      · next catalog hmark =>
        have hmarked : Transacts s.catalog catalog :=
          .of_ok (.markVerified verified.manifestSha256 verified.detail _ now) rfl hmark rfl
        exact change_advance hworker Phase.noConfusion (fun h => by cases h) rfl hmarked
    · exact .same rfl (.inl rfl)
  | recordPrimary token manifestBytes now =>
    refine change_onWorker fun worker hworker => ?_
    split
    · split
      · exact change_raise hworker
      · next hcopy => exact .recorded hworker rfl hcopy rfl
    · exact .same rfl (.inl rfl)
  | markFailed token detail now =>
    refine change_onWorker fun worker hworker => ?_
    split
    · exact change_advance hworker Phase.noConfusion (fun h => by cases h) rfl
        (.inr ⟨.markFailed worker.claim detail now, rfl⟩)
    · exact .same rfl (.inl rfl)
  | interrupt token =>
    refine change_onWorker fun worker hworker => ?_
    split
    · exact .same rfl (.inl rfl)
    · exact .same rfl (.inl rfl)
    · exact .same rfl (.inl rfl)
    · exact change_raise hworker
  | crash token =>
    exact change_onWorker fun worker hworker =>
      change_advance hworker Phase.noConfusion (fun h => by cases h) rfl (.inl rfl)
  | recordCopy copy =>
    simp only [archiveStep]
    split
    · exact .same rfl (.inl rfl)
    · next catalog hcopy =>
      have hcopied : Transacts s.catalog catalog := .of_ok (.recordCopy copy) rfl hcopy rfl
      exact .same rfl hcopied
  | evaluateRetention epoch minimum now =>
    simp only [archiveStep]
    split
    · exact .same rfl (.inl rfl)
    · next catalog evaluation hevaluated =>
      have hmoved : Transacts s.catalog catalog :=
        .of_ok (.evaluateRetention epoch minimum now) rfl hevaluated rfl
      exact .same rfl hmoved

/-- Every step leaves the catalog alone or is one of its transactions. -/
theorem archiveStep_catalog (site : ArchiveSite) (s : ArchiveSystem) (action : ArchiveAction) :
    Transacts s.catalog (archiveStep site s action).catalog := by
  cases archiveStep_workers site s action with
  | same _ hcatalog => exact hcatalog
  | @started token now _ _ hclaim =>
    exact .of_ok (.claim site.source token now 900) rfl hclaim rfl
  | moved _ _ _ _ hcatalog => exact hcatalog
  | reused _ _ _ hcatalog _ => exact .inl hcatalog
  | @recorded _ _ copy _ _ hcopy _ => exact .of_ok (.recordCopy copy) rfl hcopy rfl

/-- A reuse that passes returns, and leaves the catalog as it was. -/
theorem archiveStep_reuses {worker : Worker} {readback : Bool}
    (hworker : s.workers token = some worker) (h : Reuses site s worker readback) :
    (archiveStep site s (.finishVerify token readback)).catalog = s.catalog ∧
      (archiveStep site s (.finishVerify token readback)).workers =
        Function.update s.workers token (some { worker with phase := .returned }) := by
  obtain ⟨found, expected, hphase, hidentity, hentries, current, hcurrent, hexpected, hreadback⟩ :=
    h.passes
  simp only [archiveStep, finishVerify, ArchiveSystem.onWorker, hworker, hphase,
    Option.mem_def.mp hcurrent, verificationDetail]
  rw [if_pos ⟨hexpected, hentries, hreadback⟩]
  simp [hidentity, h.reused, ArchiveSystem.advance]

end Inversion

/-! ### The invariant -/

/-- A call that reuses a manifest which was not only exported found the scope verified. -/
structure ReuseSettled (s : ArchiveSystem) : Prop where
  settled : Settled s.catalog
  verified : ∀ token, ∀ worker ∈ s.workers token, worker.phase.reuses = true →
    worker.claim.reusableManifestPath ≠ none ∧
      (worker.claim.previousState ≠ .exported → ∃ scope ∈ s.catalog.scope, scope.state.IsVerified)

section Invariant
variable {site : ArchiveSite} {s : ArchiveSystem}

theorem Catalogued.step {catalog : Catalog} (hs : Settled catalog) (h : Catalogued catalog)
    (action : CatalogAction) : Catalogued (catalogStep catalog action) := by
  obtain ⟨scope, hscope, hverified, copy, hcopy, hprimary, hmatches⟩ := h
  obtain ⟨scope', hscope', hverified', hsame⟩ := frozen_step hs action scope hscope hverified
  exact ⟨scope', hscope', hverified', copy, (catalogStep_copies catalog action).kept copy hcopy,
    hprimary, hmatches.congr hsame⟩

theorem Catalogued.transacts {catalog catalog' : Catalog} (hs : Settled catalog)
    (h : Catalogued catalog) (hcatalog : Transacts catalog catalog') : Catalogued catalog' := by
  cases hcatalog with
  | inl hsame => exact hsame ▸ h
  | inr hstep =>
    obtain ⟨action, haction⟩ := hstep
    exact haction ▸ h.step hs action

theorem Settled.transacts {catalog catalog' : Catalog} (hs : Settled catalog)
    (hcatalog : Transacts catalog catalog') : Settled catalog' ∧ FrozenTo catalog catalog' := by
  cases hcatalog with
  | inl hsame =>
    subst hsame
    exact ⟨hs, fun scope hscope hverified =>
      ⟨scope, hscope, hverified, SameManifest.refl scope⟩⟩
  | inr hstep =>
    obtain ⟨action, haction⟩ := hstep
    subst haction
    exact ⟨settled_step hs action, frozen_step hs action⟩

/-- What is said of every worker holds after one of them is replaced. -/
theorem forall_update {workers : Uuid → Option Worker} {token : Uuid} {new : Worker}
    {P : Worker → Prop} (hnew : P new) (hold : ∀ token, ∀ worker ∈ workers token, P worker) :
    ∀ other, ∀ worker ∈ Function.update workers token (some new) other, P worker := by
  intro other worker hworker
  by_cases hsame : other = token
  · rw [hsame, Function.update_self] at hworker
    cases hworker
    exact hnew
  · rw [Function.update_of_ne hsame] at hworker
    exact hold other worker hworker

/-- What a reusing worker has found. -/
def ReuseFound (catalog : Catalog) (worker : Worker) : Prop :=
  worker.phase.reuses = true → worker.claim.reusableManifestPath ≠ none ∧
    (worker.claim.previousState ≠ .exported → ∃ scope ∈ catalog.scope, scope.state.IsVerified)

theorem reuseSettled_step (h : ReuseSettled s) (action : ArchiveAction) :
    ReuseSettled (archiveStep site s action) := by
  obtain ⟨hsettled, hfrozen⟩ := h.settled.transacts (archiveStep_catalog site s action)
  refine ⟨hsettled, ?_⟩
  have hkept : ∀ token, ∀ worker ∈ s.workers token,
      ReuseFound (archiveStep site s action).catalog worker := by
    intro token worker hworker hreuses
    obtain ⟨hreusable, hfound⟩ := h.verified token worker hworker hreuses
    refine ⟨hreusable, fun hprevious => ?_⟩
    obtain ⟨scope, hscope, hverified⟩ := hfound hprevious
    obtain ⟨scope', hscope', hverified', _⟩ := hfrozen scope hscope hverified
    exact ⟨scope', hscope', hverified'⟩
  cases archiveStep_workers site s action with
  | same hworkers _ =>
    rw [hworkers]
    exact hkept
  | @started token now claim phase hclaim hworkers _ hreuses =>
    rw [hworkers]
    refine forall_update (P := ReuseFound _) (fun hphase => ?_) hkept
    refine ⟨hreuses hphase, fun hprevious => ?_⟩
    cases claimArchiveScope_cases hclaim with
    | inl hreused =>
      obtain ⟨scope, _, hverified, hafter, _⟩ := hreused
      exact ⟨scope, hafter, hverified⟩
    | inr hclaimed =>
      obtain ⟨scope, _, _, _, _, hclaim'⟩ := hclaimed
      have hreusable := hreuses hphase
      rw [hclaim'] at hreusable hprevious
      exact absurd (if_neg hprevious) hreusable
  | @moved token worker phase hworker hworkers _ hreuses _ =>
    rw [hworkers]
    exact forall_update (P := ReuseFound _)
      (fun hphase => hkept token worker hworker (hreuses hphase)) hkept
  | reused _ _ _ _ hworkers =>
    rw [hworkers]
    exact forall_update (P := ReuseFound _) (fun hphase => by cases hphase) hkept
  | recorded _ _ _ hworkers =>
    rw [hworkers]
    exact forall_update (P := ReuseFound _) (fun hphase => by cases hphase) hkept

/-- Under the invariant a primary copy carries the digests of the verified scope. -/
theorem catalogued_iff {catalog : Catalog} (hs : Settled catalog) :
    Catalogued catalog ↔ HasPrimary catalog := by
  constructor
  · intro h
    obtain ⟨scope, _, _, copy, hcopy, hprimary, _⟩ := h
    exact ⟨copy, hcopy, hprimary⟩
  · intro h
    obtain ⟨copy, hcopy, hprimary⟩ := h
    obtain ⟨scope, hscope, hverified, hmatches⟩ := hs.copies copy hcopy
    exact ⟨scope, hscope, hverified, copy, hcopy, hprimary, hmatches⟩

theorem catalogued_recorded {catalog catalog' : Catalog} {copy : CopyVerification}
    (hs : Settled catalog') (hprimary : copy.copyRole = .primary)
    (h : recordCopyVerification copy catalog = .ok catalog') : Catalogued catalog' := by
  obtain ⟨_, _, _, _, _, _, ⟨row, hrow, hrole, _⟩, _⟩ := recordCopyVerification_copies h
  exact (catalogued_iff hs).mpr ⟨row, hrow, hrole.trans hprimary⟩

/-- A step lets a call return uncatalogued exactly when the call reuses a verified scope
without a primary copy. -/
theorem returnsCatalogued_step_iff (h : ReuseSettled s) (hreturns : ReturnsCatalogued s)
    (action : ArchiveAction) :
    ReturnsCatalogued (archiveStep site s action) ↔ ReusesWithPrimary site s action := by
  have hcatalog := archiveStep_catalog site s action
  obtain ⟨hsettled, _⟩ := h.settled.transacts hcatalog
  have hkept : ∀ token, ∀ worker ∈ s.workers token, worker.phase = .returned →
      Catalogued (archiveStep site s action).catalog :=
    fun token worker hworker hphase =>
      (hreturns token worker hworker hphase).transacts h.settled hcatalog
  constructor
  · intro hafter
    cases action with
    | finishVerify token readback =>
      intro worker hworker hreuses
      have hreturned := archiveStep_reuses hworker hreuses
      have hcatalogued := hafter token { worker with phase := .returned }
        (by rw [hreturned.2]; exact Function.update_self ..) rfl
      rw [hreturned.1] at hcatalogued
      exact (catalogued_iff h.settled).mp hcatalogued
    | _ => trivial
  · intro hreuses
    cases archiveStep_workers site s action with
    | same hworkers _ =>
      rw [ReturnsCatalogued, hworkers]
      exact hkept
    | started _ hworkers hphase _ =>
      rw [ReturnsCatalogued, hworkers]
      exact forall_update (P := fun worker => worker.phase = .returned → Catalogued _)
        (fun hreturned => absurd hreturned hphase) hkept
    | moved _ hworkers hphase _ _ =>
      rw [ReturnsCatalogued, hworkers]
      exact forall_update (P := fun worker => worker.phase = .returned → Catalogued _)
        (fun hreturned => absurd hreturned hphase) hkept
    | @reused token readback worker haction hworker hreused hsame hworkers =>
      rw [ReturnsCatalogued, hworkers]
      refine forall_update (P := fun worker => worker.phase = .returned → Catalogued _)
        (fun _ => ?_) hkept
      rw [haction] at hreuses
      rw [hsame]
      exact (catalogued_iff h.settled).mpr (hreuses worker hworker hreused)
    | recorded _ hprimary hcopy hworkers =>
      rw [ReturnsCatalogued, hworkers]
      exact forall_update (P := fun worker => worker.phase = .returned → Catalogued _)
        (fun _ => catalogued_recorded hsettled hprimary hcopy) hkept

end Invariant

/-- Calls that return are fully catalogued, in every state of a run, exactly when no call that
found the scope verified passes its verification before a primary copy is recorded. -/
theorem returned_catalogued_iff (site : ArchiveSite) (files : ArchiveFiles)
    (actions : List ArchiveAction) :
    Always (archiveStep site) ReturnsCatalogued ⟨emptyCatalog, files, fun _ => none⟩ actions ↔
      Steps (archiveStep site) (ReusesWithPrimary site) ⟨emptyCatalog, files, fun _ => none⟩
        actions := by
  have hkept : ∀ s action, ReuseSettled s → ReuseSettled (archiveStep site s action) :=
    fun _ action h => reuseSettled_step h action
  have hstep : ∀ s action, ReuseSettled s → ReturnsCatalogued s →
      (ReturnsCatalogued (archiveStep site s action) ↔ ReusesWithPrimary site s action) :=
    fun _ action h hreturns => returnsCatalogued_step_iff h hreturns action
  refine always_iff_steps hkept hstep ⟨settled_empty, ?_⟩ ?_ actions
  · exact fun _ _ hworker => by cases hworker
  · exact fun _ _ hworker => by cases hworker

/-- Export once and crash before the primary copy, then call again. -/
def interruptedCopy : List ArchiveAction :=
  published 1 0 ++ exported 1 1000000000 ++ [.markVerified 1 1000000001, .crash 1,
    .startExport 2 2000000000, .readManifest 2, .readSidecar 2, .finishVerify 2 true]

/-- The second call returns, and no copy has been recorded. -/
theorem returned_without_primary :
    ¬ Always (archiveStep sampleSite) ReturnsCatalogued emptySystem interruptedCopy := by
  intro h
  have hreturned : ((run (archiveStep sampleSite) emptySystem interruptedCopy).workers 2).any
      (·.phase.isReturned) = true := by decide +kernel
  obtain ⟨worker, hworker, hphase⟩ := (Option.any_eq_true _ _).mp hreturned
  have hcopies : (run (archiveStep sampleSite) emptySystem interruptedCopy).catalog.copies.rows =
      [] := by decide +kernel
  obtain ⟨scope, _, _, copy, hcopy, _⟩ := h.final 2 worker hworker (Phase.eq_returned hphase)
  rw [hcopies] at hcopy
  exact absurd hcopy List.not_mem_nil

end PumpResearch.Archive
