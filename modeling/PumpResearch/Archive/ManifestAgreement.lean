import PumpResearch.Archive.Export
import PumpResearch.Library.Runs

/-! The manifest on disk and the manifest in the catalog, over all runs. They agree as long as a
manifest is written under the writer's own claim, and verified before a new export is claimed. -/
namespace PumpResearch.Archive
open KeyedTable Results Runs

/-! ### The property and the condition -/

/-- The file at the scope's manifest path has the digest of the catalog. -/
def ManifestAgrees (site : ArchiveSite) (files : ArchiveFiles) (scope : ArchiveScope) : Prop :=
  ∃ manifest ∈ files.manifest, scope.manifestPath = some site.manifestPath ∧
    scope.manifestSha256 = some (site.manifestDigest manifest)

instance decidableManifestAgrees (site : ArchiveSite) (files : ArchiveFiles)
    (scope : ArchiveScope) : Decidable (ManifestAgrees site files scope) :=
  inferInstanceAs (Decidable (∃ manifest ∈ files.manifest, _ ∧ _))

/-- A verified scope has its manifest on disk. -/
def Agrees (site : ArchiveSite) (s : ArchiveSystem) : Prop :=
  ∀ scope ∈ s.catalog.scope, scope.state.IsVerified → ManifestAgrees site s.files scope

instance decidableAgrees (site : ArchiveSite) : DecidablePred (Agrees site) :=
  fun s => inferInstanceAs (Decidable (∀ scope ∈ s.catalog.scope, _))

/-- The claim of the scope is the worker's own. -/
def Owns (s : ArchiveSystem) (token : Uuid) : Prop :=
  ∃ scope ∈ s.catalog.scope, scope.claim.map (·.token) = some token

instance decidableOwns (s : ArchiveSystem) (token : Uuid) : Decidable (Owns s token) :=
  inferInstanceAs (Decidable (∃ scope ∈ s.catalog.scope, _))

/-- The scope is exporting under a claim that was taken to reuse an exported manifest. -/
def Reclaimed (s : ArchiveSystem) (scope : ArchiveScope) : Prop :=
  scope.state = .exporting ∧ ∃ lease ∈ scope.claim, ∃ worker ∈ s.workers lease.token,
    worker.claim.reusableManifestPath ≠ none

instance decidableReclaimed (s : ArchiveSystem) (scope : ArchiveScope) :
    Decidable (Reclaimed s scope) :=
  inferInstanceAs (Decidable (_ ∧ ∃ lease ∈ scope.claim, ∃ worker ∈ s.workers lease.token, _))

/-- No new export has been claimed since the manifest of the catalog was exported. -/
def Current (s : ArchiveSystem) (scope : ArchiveScope) : Prop :=
  scope.state = .exported ∨ scope.state.IsVerified ∨ Reclaimed s scope

instance decidableCurrent (s : ArchiveSystem) (scope : ArchiveScope) :
    Decidable (Current s scope) :=
  inferInstanceAs (Decidable (_ ∨ _ ∨ _))

/-- The next step of the phase replaces the manifest. -/
def Phase.writes : Phase → Bool
  | .publishing _ _ [] => true
  | _ => false

/-- The next step of the phase marks this digest as verified. -/
def Phase.verifies : Phase → Option String
  | .exportCatalogued verified => some verified.manifestSha256
  | _ => none

/-- The worker whose manifest an action writes. -/
def ArchiveAction.writer : ArchiveAction → Option Uuid
  | .writeManifest token _ _ => some token
  | _ => none

/-- The worker that an action marks the scope as verified for. -/
def ArchiveAction.verifier : ArchiveAction → Option Uuid
  | .markVerified token _ => some token
  | _ => none

/-- A manifest is written under the writer's own claim; a digest that the catalog holds is
marked as verified before a new export is claimed. -/
def Guarded (s : ArchiveSystem) (action : ArchiveAction) : Prop :=
  (∀ token ∈ action.writer, ∀ worker ∈ s.workers token,
    worker.phase.writes = true → Owns s token) ∧
  ∀ token ∈ action.verifier, ∀ worker ∈ s.workers token, ∀ scope ∈ s.catalog.scope,
    worker.phase.verifies ≠ none → scope.manifestSha256 = worker.phase.verifies →
      Current s scope

instance decidableGuarded (s : ArchiveSystem) (action : ArchiveAction) :
    Decidable (Guarded s action) :=
  inferInstanceAs (Decidable ((∀ token ∈ action.writer, ∀ worker ∈ s.workers token, _) ∧
    ∀ token ∈ action.verifier, ∀ worker ∈ s.workers token, ∀ scope ∈ s.catalog.scope, _))

/-! ### The invariant -/

/-- The phases before the manifest is written. -/
def Phase.writesLater : Phase → Bool
  | .exporting | .publishing _ _ _ => true
  | _ => false

/-- What the owner of the claim knows about the manifest on disk. -/
def PhaseKnows (site : ArchiveSite) (manifest? : Option Manifest) : Phase → Prop
  | .manifestWritten manifest | .sidecarHashed manifest _ | .sidecarWritten manifest =>
    manifest? = some manifest
  | .verifying (some (manifest, digest)) | .manifestRead (some (manifest, digest)) _
  | .sidecarRead (some (manifest, digest)) _ _ | .exportVerified manifest digest _ =>
    manifest? = some manifest ∧ digest = site.manifestDigest manifest
  | _ => True

structure Consistent (site : ArchiveSite) (s : ArchiveSystem) : Prop where
  claimed : ∀ scope ∈ s.catalog.scope, scope.claim ≠ none ↔ scope.state = .exporting
  verified : ∀ scope ∈ s.catalog.scope, scope.verifiedAt ≠ none → scope.state.IsVerified
  agrees : ∀ scope ∈ s.catalog.scope, Current s scope → ManifestAgrees site s.files scope
  owner : ∀ scope ∈ s.catalog.scope, ∀ lease ∈ scope.claim,
    ∃ worker ∈ s.workers lease.token, PhaseKnows site s.files.manifest worker.phase
  tokens : ∀ token, ∀ worker ∈ s.workers token,
    ∀ drawn ∈ worker.claim.claimToken, drawn = token
  exports : ∀ token, ∀ worker ∈ s.workers token,
    worker.phase.writesLater = true → worker.claim.reusableManifestPath = none

section Invariant
variable {site : ArchiveSite} {s : ArchiveSystem} {token : Uuid} {worker : Worker}

theorem Consistent.holds (h : Consistent site s) : Agrees site s :=
  fun scope hscope hverified => h.agrees scope hscope (.inr (.inl hverified))

theorem not_isVerified_exporting {scope : ArchiveScope} (h : scope.state = .exporting) :
    ¬ scope.state.IsVerified := by
  rw [h]
  decide

/-- Without claims, files or workers of its own a catalog is consistent. -/
theorem consistent_start (hscope : s.catalog.scope = none)
    (hworkers : ∀ token, s.workers token = none) : Consistent site s where
  claimed scope h := by rw [hscope] at h; cases h
  verified scope h := by rw [hscope] at h; cases h
  agrees scope h := by rw [hscope] at h; cases h
  owner scope h := by rw [hscope] at h; cases h
  tokens token worker h := by rw [hworkers] at h; cases h
  exports token worker h := by rw [hworkers] at h; cases h

/-- What an update finds at a token. -/
theorem mem_update {workers : Uuid → Option Worker} {other : Uuid} {new found : Worker}
    (h : found ∈ Function.update workers token (some new) other) :
    other = token ∧ found = new ∨ other ≠ token ∧ found ∈ workers other := by
  by_cases hother : other = token
  · subst hother
    rw [Function.update_self] at h
    cases h
    exact .inl ⟨rfl, rfl⟩
  · rw [Function.update_of_ne hother] at h
    exact .inr ⟨hother, h⟩

/-- A worker moves on: its claim, the scope and the manifest stay. -/
theorem consistent_move (h : Consistent site s) (hworker : s.workers token = some worker)
    {phase : Phase} {s' : ArchiveSystem} (hcatalog : s'.catalog.scope = s.catalog.scope)
    (hmanifest : s'.files.manifest = s.files.manifest)
    (hworkers : s'.workers = Function.update s.workers token (some { worker with phase }))
    (hknows : PhaseKnows site s.files.manifest worker.phase →
      PhaseKnows site s.files.manifest phase)
    (hwrites : phase.writesLater = true → worker.phase.writesLater = true) :
    Consistent site s' where
  claimed := by
    rw [hcatalog]
    exact h.claimed
  verified := by
    rw [hcatalog]
    exact h.verified
  agrees scope hscope hcurrent := by
    rw [hcatalog] at hscope
    have hbefore : Current s scope := by
      refine hcurrent.imp_right (Or.imp_right fun hreclaimed => ⟨hreclaimed.1, ?_⟩)
      obtain ⟨_, lease, hlease, found, hfound, hreuse⟩ := hreclaimed
      rw [hworkers] at hfound
      refine ⟨lease, hlease, ?_⟩
      cases mem_update hfound with
      | inl hsame =>
        rw [hsame.2] at hreuse
        exact ⟨worker, hsame.1 ▸ hworker, hreuse⟩
      | inr hother => exact ⟨found, hother.2, hreuse⟩
    obtain ⟨manifest, hfile, hpath, hdigest⟩ := h.agrees scope hscope hbefore
    exact ⟨manifest, hmanifest ▸ hfile, hpath, hdigest⟩
  owner scope hscope lease hlease := by
    rw [hcatalog] at hscope
    obtain ⟨owner, howner, hknown⟩ := h.owner scope hscope lease hlease
    rw [hmanifest, hworkers]
    by_cases htoken : lease.token = token
    · have hsame : owner = worker := by
        rw [htoken] at howner
        exact Option.some.inj (howner.symm.trans hworker)
      rw [htoken, Function.update_self]
      exact ⟨{ worker with phase }, rfl, hknows (hsame ▸ hknown)⟩
    · rw [Function.update_of_ne htoken]
      exact ⟨owner, howner, hknown⟩
  tokens other found hfound drawn hdrawn := by
    rw [hworkers] at hfound
    cases mem_update hfound with
    | inl hsame =>
      rw [hsame.2] at hdrawn
      exact hsame.1 ▸ h.tokens token worker hworker drawn hdrawn
    | inr hother => exact h.tokens other found hother.2 drawn hdrawn
  exports other found hfound hlater := by
    rw [hworkers] at hfound
    cases mem_update hfound with
    | inl hsame =>
      rw [hsame.2] at hlater ⊢
      exact h.exports token worker hworker (hwrites hlater)
    | inr hother => exact h.exports other found hother.2 hlater

theorem consistent_advance (h : Consistent site s) (hworker : s.workers token = some worker)
    {phase : Phase} (hknows : PhaseKnows site s.files.manifest worker.phase →
      PhaseKnows site s.files.manifest phase)
    (hwrites : phase.writesLater = true → worker.phase.writesLater = true) :
    Consistent site (s.advance token worker phase) :=
  consistent_move h hworker rfl rfl rfl hknows hwrites

theorem consistent_raise (h : Consistent site s) (hworker : s.workers token = some worker) :
    Consistent site (s.raise token worker) := by
  unfold ArchiveSystem.raise
  split
  · exact consistent_advance h hworker (fun _ => trivial) (fun hlater => by cases hlater)
  · exact consistent_advance h hworker (fun _ => trivial) (fun hlater => by cases hlater)

theorem consistent_onWorker {f : Worker → ArchiveSystem} (h : Consistent site s)
    (hf : ∀ worker, s.workers token = some worker → Consistent site (f worker)) :
    Consistent site (s.onWorker token f) := by
  unfold ArchiveSystem.onWorker
  split
  · exact h
  · next worker hworker => exact hf worker hworker

/-! ### Steps on the catalog -/

/-- A transaction that leaves one scope: what has to be known about its row. -/
theorem consistent_scope (h : Consistent site s) {catalog : Catalog} {scope : ArchiveScope}
    (hscope : catalog.scope = some scope) (hclaimed : scope.claim ≠ none ↔ scope.state = .exporting)
    (hverified : scope.verifiedAt ≠ none → scope.state.IsVerified)
    (hagrees : Current s scope → ManifestAgrees site s.files scope)
    (howner : ∀ lease ∈ scope.claim,
      ∃ worker ∈ s.workers lease.token, PhaseKnows site s.files.manifest worker.phase) :
    Consistent site { s with catalog } where
  claimed other hother := by
    obtain rfl : scope = other := Option.some.inj (hscope.symm.trans hother)
    exact hclaimed
  verified other hother := by
    obtain rfl : scope = other := Option.some.inj (hscope.symm.trans hother)
    exact hverified
  agrees other hother := by
    obtain rfl : scope = other := Option.some.inj (hscope.symm.trans hother)
    exact hagrees
  owner other hother := by
    obtain rfl : scope = other := Option.some.inj (hscope.symm.trans hother)
    exact howner
  tokens := h.tokens
  exports := h.exports

/-- The claimed row of a call with a new token. -/
theorem consistent_claimed (h : Consistent site s) (hfree : s.workers token = none)
    {now leaseSeconds : Int} {catalog : Catalog} {claim : ArchiveClaim}
    (hclaim : claimArchiveScope site.source token now leaseSeconds s.catalog =
      .ok (catalog, claim)) :
    Consistent site { s with
      catalog
      workers := Function.update s.workers token (some ⟨claim,
        if claim.reusableManifestPath = none then Phase.exporting else .verifying none⟩) } := by
  have htokens : ∀ drawn ∈ claim.claimToken, drawn = token := by
    intro drawn hdrawn
    cases claimArchiveScope_cases hclaim with
    | inl hreuse =>
      obtain ⟨_, _, _, _, hclaimed⟩ := hreuse
      rw [hclaimed] at hdrawn
      cases hdrawn
    | inr htaken =>
      obtain ⟨_, _, _, _, _, hclaimed⟩ := htaken
      rw [hclaimed] at hdrawn
      cases hdrawn
      rfl
  -- The new worker knows nothing about the manifest, and exports only without one to reuse.
  have hphase : ∀ phase, phase = (if claim.reusableManifestPath = none then Phase.exporting
      else .verifying none) → PhaseKnows site s.files.manifest phase ∧
        (phase.writesLater = true → claim.reusableManifestPath = none) := by
    intro phase hphase
    rw [hphase]
    split
    · next hnone => exact ⟨trivial, fun _ => hnone⟩
    · exact ⟨trivial, fun hlater => by cases hlater⟩
  have hother : ∀ {lease : ArchiveLease} {worker : Worker}, worker ∈ s.workers lease.token →
      lease.token ≠ token := by
    intro lease worker hworker heq
    rw [heq, hfree] at hworker
    cases hworker
  have hworkers : ∀ other found, found ∈ Function.update s.workers token (some ⟨claim,
      if claim.reusableManifestPath = none then Phase.exporting else .verifying none⟩) other →
      (∀ drawn ∈ found.claim.claimToken, drawn = other) ∧
        (found.phase.writesLater = true → found.claim.reusableManifestPath = none) := by
    intro other found hfound
    cases mem_update hfound with
    | inl hnew =>
      rw [hnew.2, hnew.1]
      exact ⟨htokens, (hphase _ rfl).2⟩
    | inr hold => exact ⟨h.tokens other found hold.2, h.exports other found hold.2⟩
  cases claimArchiveScope_cases hclaim with
  | inl hreuse =>
    obtain ⟨scope, hscope, hverified, hcatalog, _⟩ := hreuse
    refine ⟨fun found hfound => ?_, fun found hfound => ?_, fun found hfound _ => ?_,
      fun found hfound lease hlease => ?_, fun other found hfound => (hworkers other found hfound).1,
      fun other found hfound => (hworkers other found hfound).2⟩
    · obtain rfl : scope = found := Option.some.inj (hcatalog.symm.trans hfound)
      exact h.claimed scope hscope
    · obtain rfl : scope = found := Option.some.inj (hcatalog.symm.trans hfound)
      exact h.verified scope hscope
    · obtain rfl : scope = found := Option.some.inj (hcatalog.symm.trans hfound)
      exact h.agrees scope hscope (.inr (.inl hverified))
    · obtain rfl : scope = found := Option.some.inj (hcatalog.symm.trans hfound)
      obtain ⟨owner, howner, hknown⟩ := h.owner scope hscope lease hlease
      refine ⟨owner, ?_, hknown⟩
      show owner ∈ Function.update s.workers token _ lease.token
      rw [Function.update_of_ne (hother howner)]
      exact howner
  | inr htaken =>
    obtain ⟨scope, hscope, hnot, _, hcatalog, hclaimed⟩ := htaken
    refine ⟨fun found hfound => ?_, fun found hfound => ?_, fun found hfound hcurrent => ?_,
      fun found hfound lease hlease => ?_, fun other found hfound => (hworkers other found hfound).1,
      fun other found hfound => (hworkers other found hfound).2⟩
    · obtain rfl : claimedScope scope token now leaseSeconds = found :=
        Option.some.inj (hcatalog.symm.trans hfound)
      exact ⟨fun _ => rfl, fun _ hnone => by cases hnone⟩
    · obtain rfl : claimedScope scope token now leaseSeconds = found :=
        Option.some.inj (hcatalog.symm.trans hfound)
      intro hmarked
      cases hscope with
      | inl hstored => exact absurd (h.verified scope hstored hmarked) hnot
      | inr hnew =>
        rw [hnew.2] at hmarked
        exact absurd rfl hmarked
    · obtain rfl : claimedScope scope token now leaseSeconds = found :=
        Option.some.inj (hcatalog.symm.trans hfound)
      have hexporting : (claimedScope scope token now leaseSeconds).state = .exporting := rfl
      have hreclaimed := (hcurrent.resolve_left (by rw [hexporting]; decide)).resolve_left
        (not_isVerified_exporting hexporting)
      obtain ⟨_, lease, hlease, worker, hworker, hreuse⟩ := hreclaimed
      cases hlease
      have hworker' : worker.claim = claim := by
        cases mem_update hworker with
        | inl hnew => rw [hnew.2]
        | inr hold => exact absurd rfl hold.1
      rw [hworker', hclaimed] at hreuse
      by_cases hexported : scope.state = .exported
      · cases hscope with
        | inl hstored => exact h.agrees scope hstored (.inl hexported)
        | inr hnew =>
          rw [hnew.2] at hexported
          cases hexported
      · rw [if_neg hexported] at hreuse
        exact absurd rfl hreuse
    · obtain rfl : claimedScope scope token now leaseSeconds = found :=
        Option.some.inj (hcatalog.symm.trans hfound)
      cases hlease
      exact ⟨_, Function.update_self .., (hphase _ rfl).1⟩

theorem consistent_startExport (h : Consistent site s) (now : Int) :
    Consistent site (startExport site token now s) := by
  unfold startExport
  split
  · exact h
  · next hfree =>
    split
    · exact h
    · next catalog claim hclaim => exact consistent_claimed h (by simpa using hfree) hclaim

/-- The owner replaces the manifest; the scope is exporting and its claim is no reuse. -/
theorem consistent_written (h : Consistent site s) (hworker : s.workers token = some worker)
    (hphase : worker.phase.writesLater = true) (howns : Owns s token) (manifest : Manifest) :
    Consistent site ({ s with files := { s.files with manifest := some manifest } }.advance token
      worker (.manifestWritten manifest)) := by
  obtain ⟨scope, hscope, hclaim⟩ := howns
  obtain ⟨lease, hlease, htoken⟩ := Option.map_eq_some_iff.mp hclaim
  have hexporting : scope.state = .exporting := (h.claimed scope hscope).mp (by simp [hlease])
  have hupdate : Function.update s.workers token
      (some { worker with phase := .manifestWritten manifest }) token =
        some { worker with phase := .manifestWritten manifest } := Function.update_self ..
  refine ⟨h.claimed, h.verified, fun found hfound hcurrent => ?_, fun found hfound other hother => ?_,
    fun other found hfound => ?_, fun other found hfound => ?_⟩
  · obtain rfl : scope = found := Option.some.inj (hscope.symm.trans hfound)
    have hreclaimed := (hcurrent.resolve_left (by rw [hexporting]; decide)).resolve_left
      (not_isVerified_exporting hexporting)
    obtain ⟨_, other, hother, owner, howner, hreuse⟩ := hreclaimed
    obtain rfl : lease = other := Option.some.inj (hlease.symm.trans hother)
    rw [htoken] at howner
    obtain rfl := Option.some.inj (hupdate.symm.trans howner)
    exact absurd (h.exports token worker hworker hphase) hreuse
  · obtain rfl : scope = found := Option.some.inj (hscope.symm.trans hfound)
    obtain rfl : lease = other := Option.some.inj (hlease.symm.trans hother)
    rw [htoken]
    exact ⟨_, hupdate, rfl⟩
  · cases mem_update hfound with
    | inl hnew =>
      rw [hnew.2, hnew.1]
      exact h.tokens token worker hworker
    | inr hold => exact h.tokens other found hold.2
  · cases mem_update hfound with
    | inl hnew =>
      rw [hnew.2]
      exact fun hlater => by cases hlater
    | inr hold => exact h.exports other found hold.2

/-- The owner catalogues the manifest that it wrote. -/
theorem consistent_exported (h : Consistent site s) (hworker : s.workers token = some worker)
    {manifest : Manifest} {digest : String} {detail : VerificationDetail}
    (hphase : worker.phase = .exportVerified manifest digest detail) {now : Int}
    {catalog : Catalog} (hmark : markArchiveExported worker.claim
      ⟨site.manifestPath, digest, manifest.aggregateFileSha256, manifest.sourceRowCount,
        manifest.parquetBytes⟩ now s.catalog = .ok catalog) :
    Consistent site { s with catalog } := by
  obtain ⟨scope, hscope, hclaim, hexporting, hcatalog⟩ := markArchiveExported_eq_ok hmark
  obtain ⟨lease, hlease⟩ := Option.ne_none_iff_exists'.mp ((h.claimed scope hscope).mpr hexporting)
  obtain ⟨owner, howner, hknown⟩ := h.owner scope hscope lease hlease
  have htoken : lease.token = token :=
    h.tokens token worker hworker lease.token (by rw [← hclaim, hlease]; rfl)
  obtain rfl : owner = worker := by
    rw [htoken] at howner
    exact Option.some.inj (howner.symm.trans hworker)
  rw [hphase] at hknown
  refine consistent_scope h hcatalog ⟨fun hclaimed => absurd rfl hclaimed, fun hstate => by cases hstate⟩
    (fun hmarked => ?_) (fun _ => ?_) (fun lease hlease => by cases hlease)
  · exact absurd (h.verified scope hscope hmarked) (not_isVerified_exporting hexporting)
  · exact ⟨manifest, hknown.1, rfl, congrArg some hknown.2⟩

/-- A digest is marked as verified while the catalog's manifest is the one on disk. -/
theorem consistent_verified (h : Consistent site s) {digest : String} {detail : VerificationDetail}
    {passed : Bool} {now : Int} {catalog : Catalog}
    (hcurrent : ∀ scope ∈ s.catalog.scope, scope.manifestSha256 = some digest → Current s scope)
    (hmark : markArchiveVerified digest detail passed now s.catalog = .ok catalog) :
    Consistent site { s with catalog } := by
  obtain ⟨scope, hscope, hdigest, hcatalog⟩ := markArchiveVerified_eq_ok hmark
  have hverified : ScopeState.IsVerified .verified := by decide
  refine consistent_scope h hcatalog
    ⟨fun hclaimed => absurd rfl hclaimed, fun hstate => by cases hstate⟩ (fun _ => hverified)
    (fun _ => ?_) (fun lease hlease => by cases hlease)
  exact h.agrees scope hscope (hcurrent scope hscope hdigest)

theorem consistent_failed (h : Consistent site s) (claim : ArchiveClaim) (detail : FailureDetail)
    (now : Int) :
    Consistent site { s with catalog := markArchiveFailed claim detail now s.catalog } := by
  cases markArchiveFailed_cases s.catalog claim detail now with
  | inl hsame =>
    rw [hsame]
    exact h
  | inr hfailed =>
    obtain ⟨scope, token, hscope, _, htoken, hcatalog⟩ := hfailed
    have hexporting : scope.state = .exporting := by
      refine (h.claimed scope hscope).mp fun hnone => ?_
      rw [hnone] at htoken
      cases htoken
    have hfailed : ¬ ScopeState.IsVerified .failed := by decide
    refine consistent_scope h hcatalog
      ⟨fun hclaimed => absurd rfl hclaimed, fun hstate => by cases hstate⟩ (fun hmarked => ?_)
      (fun hcurrent => ?_) (fun lease hlease => by cases hlease)
    · exact absurd (h.verified scope hscope hmarked) (not_isVerified_exporting hexporting)
    · cases hcurrent with
      | inl hexported => cases hexported
      | inr hrest =>
        cases hrest with
        | inl hverified => exact absurd hverified hfailed
        | inr hreclaimed => cases hreclaimed.1

/-- A verified scope moves between the verified states. -/
theorem consistent_verifiedState (h : Consistent site s) {scope : ArchiveScope}
    (hscope : s.catalog.scope = some scope) (hverified : scope.state.IsVerified)
    {state : ScopeState} (hstate : state.IsVerified) {updatedAt : Int} {catalog : Catalog}
    (hcatalog : catalog.scope = some { scope with state, updatedAt }) :
    Consistent site { s with catalog } := by
  have hnone : ¬ scope.claim ≠ none := fun hclaimed =>
    not_isVerified_exporting ((h.claimed scope hscope).mp hclaimed) hverified
  refine consistent_scope h hcatalog ⟨fun hclaimed => absurd hclaimed hnone,
    fun hexporting => absurd hstate (not_isVerified_exporting hexporting)⟩ (fun _ => hstate)
    (fun _ => h.agrees scope hscope (.inr (.inl hverified))) (h.owner scope hscope)

theorem consistent_copy (h : Consistent site s) {copy : CopyVerification} {catalog : Catalog}
    (hcopy : recordCopyVerification copy s.catalog = .ok catalog) :
    Consistent site { s with catalog } := by
  obtain ⟨scope, scope', hscope, hcatalog, hverified, hverified', hsame⟩ :=
    recordCopyVerification_eq_ok hcopy
  exact consistent_verifiedState h hscope hverified hverified' (hcatalog.trans (congrArg some hsame))

theorem consistent_retention (h : Consistent site s) {epoch : EpochStatus} {minimum : Nat}
    {now : Int} {evaluation : RetentionEvaluation} {catalog : Catalog}
    (hevaluated : evaluateRetentionEligibility epoch minimum now s.catalog =
      .ok (catalog, evaluation)) : Consistent site { s with catalog } := by
  obtain ⟨scope, hscope, hcases⟩ := evaluateRetentionEligibility_eq_ok hevaluated
  cases hcases with
  | inl hsame =>
    exact consistent_scope h hsame (h.claimed scope hscope) (h.verified scope hscope)
      (h.agrees scope hscope) (h.owner scope hscope)
  | inr heligible =>
    have hverified := h.verified scope hscope (Option.isSome_iff_ne_none.mp heligible.1)
    exact consistent_verifiedState h hscope hverified (by decide) heligible.2

/-! ### All steps -/

theorem consistent_exportRows (h : Consistent site s) (startedAt : Int)
    (entries : List ManifestEntry) : Consistent site (exportRows token startedAt entries s) := by
  refine consistent_onWorker h fun worker hworker => ?_
  split
  · next hphase => exact consistent_advance h hworker (fun _ => trivial) (fun _ => by rw [hphase]; rfl)
  · exact h

theorem consistent_publishFile (h : Consistent site s) :
    Consistent site (publishFile token s) := by
  refine consistent_onWorker h fun worker hworker => ?_
  split
  · next hphase =>
    split
    · split
      · exact consistent_advance h hworker (fun _ => trivial) (fun _ => by rw [hphase]; rfl)
      · exact consistent_raise h hworker
    · exact consistent_move h hworker rfl rfl rfl (fun _ => trivial) (fun _ => by rw [hphase]; rfl)
  · exact h

theorem consistent_writeManifest (h : Consistent site s) {completedAt verifiedAt : Int}
    (howns : ∀ worker ∈ s.workers token, worker.phase.writes = true → Owns s token) :
    Consistent site (writeManifest site token completedAt verifiedAt s) := by
  refine consistent_onWorker h fun worker hworker => ?_
  split
  · next hphase =>
    exact consistent_written h hworker (by rw [hphase]; rfl)
      (howns worker hworker (by rw [hphase]; rfl)) _
  · exact h

theorem consistent_hashForSidecar (h : Consistent site s) :
    Consistent site (hashForSidecar site token s) := by
  refine consistent_onWorker h fun worker hworker => ?_
  split
  · next hphase _ =>
    exact consistent_advance h hworker (fun hknown => by rwa [hphase] at hknown)
      (fun hlater => by cases hlater)
  · exact consistent_raise h hworker
  · exact h

theorem consistent_writeSidecar (h : Consistent site s) :
    Consistent site (writeSidecar token s) := by
  refine consistent_onWorker h fun worker hworker => ?_
  split
  · next hphase =>
    exact consistent_move h hworker rfl rfl rfl (fun hknown => by rwa [hphase] at hknown)
      (fun hlater => by cases hlater)
  · exact h

/-- The digest that is read is that of the manifest on disk. -/
theorem consistent_hashManifest (h : Consistent site s) :
    Consistent site (hashManifest site token s) := by
  refine consistent_onWorker h fun worker hworker => ?_
  split
  · next manifest found hphase hfound =>
    refine consistent_advance h hworker (fun hknown => ?_) (fun hlater => by cases hlater)
    rw [hphase] at hknown
    have hsame : found = manifest := Option.some.inj (hfound.symm.trans hknown)
    exact ⟨hknown, by rw [hsame]⟩
  · exact consistent_raise h hworker
  · exact h

theorem consistent_readManifest (h : Consistent site s) :
    Consistent site (readManifest token s) := by
  refine consistent_onWorker h fun worker hworker => ?_
  split
  · next exported found hphase _ =>
    refine consistent_advance h hworker (fun hknown => ?_) (fun hlater => by cases hlater)
    rw [hphase] at hknown
    cases exported with
    | none => trivial
    | some own => exact hknown
  · exact consistent_raise h hworker
  · exact h

theorem consistent_readSidecar (h : Consistent site s) : Consistent site (readSidecar token s) := by
  refine consistent_onWorker h fun worker hworker => ?_
  split
  · next exported found expected hphase _ =>
    refine consistent_advance h hworker (fun hknown => ?_) (fun hlater => by cases hlater)
    rw [hphase] at hknown
    cases exported with
    | none => trivial
    | some own => exact hknown
  · exact consistent_raise h hworker
  · exact h

theorem consistent_finishVerify (h : Consistent site s) (readback : Bool) :
    Consistent site (finishVerify site token readback s) := by
  refine consistent_onWorker h fun worker hworker => ?_
  split
  · next exported found expected current hphase _ =>
    simp only
    split
    · split
      · refine consistent_advance h hworker (fun hknown => ?_) (fun hlater => by cases hlater)
        rwa [hphase] at hknown
      · split
        · exact consistent_raise h hworker
        · split
          · exact consistent_advance h hworker (fun _ => trivial) (fun hlater => by cases hlater)
          · exact consistent_advance h hworker (fun _ => trivial) (fun hlater => by cases hlater)
    · exact consistent_raise h hworker
  · exact consistent_raise h hworker
  · exact h

theorem consistent_markExported (h : Consistent site s) (now : Int) :
    Consistent site (markExported site token now s) := by
  refine consistent_onWorker h fun worker hworker => ?_
  split
  · next hphase =>
    split
    · exact consistent_raise h hworker
    · next hmark =>
      exact consistent_move (consistent_exported h hworker hphase hmark) hworker rfl rfl rfl
        (fun _ => trivial) (fun hlater => by cases hlater)
  · exact h

theorem consistent_readExisting (h : Consistent site s) :
    Consistent site (readExisting token s) := by
  refine consistent_onWorker h fun worker hworker => ?_
  split
  · exact consistent_advance h hworker (fun _ => trivial) (fun hlater => by cases hlater)
  · exact consistent_raise h hworker
  · exact h

theorem consistent_markVerified (h : Consistent site s) {now : Int}
    (hcurrent : ∀ worker ∈ s.workers token, ∀ scope ∈ s.catalog.scope,
      worker.phase.verifies ≠ none → scope.manifestSha256 = worker.phase.verifies →
        Current s scope) : Consistent site (markVerified token now s) := by
  refine consistent_onWorker h fun worker hworker => ?_
  split
  · next verified hphase =>
    split
    · exact consistent_raise h hworker
    · next catalog hmark =>
      have hverifies : worker.phase.verifies = some verified.manifestSha256 := by rw [hphase]; rfl
      have hmarked : Consistent site { s with catalog } := by
        refine consistent_verified h (fun scope hscope hdigest => ?_) hmark
        exact hcurrent worker hworker scope hscope (by simp [hverifies])
          (hdigest.trans hverifies.symm)
      exact consistent_move hmarked hworker rfl rfl rfl (fun _ => trivial)
        (fun hlater => by cases hlater)
  · exact h

theorem consistent_recordPrimary (h : Consistent site s) (manifestBytes : Nat) (now : Int) :
    Consistent site (recordPrimary site token manifestBytes now s) := by
  refine consistent_onWorker h fun worker hworker => ?_
  split
  · split
    · exact consistent_raise h hworker
    · next hcopy =>
      exact consistent_move (consistent_copy h hcopy) hworker rfl rfl rfl (fun _ => trivial)
        (fun hlater => by cases hlater)
  · exact h

theorem consistent_markFailed (h : Consistent site s) (detail : FailureDetail) (now : Int) :
    Consistent site (markFailed token detail now s) := by
  refine consistent_onWorker h fun worker hworker => ?_
  split
  · exact consistent_move (consistent_failed h worker.claim detail now) hworker rfl rfl rfl
      (fun _ => trivial) (fun hlater => by cases hlater)
  · exact h

theorem consistent_interrupt (h : Consistent site s) : Consistent site (interrupt token s) := by
  refine consistent_onWorker h fun worker hworker => ?_
  split
  · exact h
  · exact h
  · exact h
  · exact consistent_raise h hworker

theorem consistent_crash (h : Consistent site s) : Consistent site (crash token s) :=
  consistent_onWorker h fun _ hworker =>
    consistent_advance h hworker (fun _ => trivial) (fun hlater => by cases hlater)

/-- Guarded steps keep the invariant. -/
theorem consistent_step (action : ArchiveAction) (h : Consistent site s)
    (hguarded : Guarded s action) : Consistent site (archiveStep site s action) := by
  cases action with
  | startExport token now => exact consistent_startExport h now
  | exportRows token startedAt entries => exact consistent_exportRows h startedAt entries
  | publishFile token => exact consistent_publishFile h
  | writeManifest token completedAt verifiedAt =>
    exact consistent_writeManifest h (hguarded.1 token rfl)
  | hashForSidecar token => exact consistent_hashForSidecar h
  | writeSidecar token => exact consistent_writeSidecar h
  | hashManifest token => exact consistent_hashManifest h
  | readManifest token => exact consistent_readManifest h
  | readSidecar token => exact consistent_readSidecar h
  | finishVerify token readback => exact consistent_finishVerify h readback
  | markExported token now => exact consistent_markExported h now
  | readExisting token => exact consistent_readExisting h
  | markVerified token now => exact consistent_markVerified h (hguarded.2 token rfl)
  | recordPrimary token manifestBytes now => exact consistent_recordPrimary h manifestBytes now
  | markFailed token detail now => exact consistent_markFailed h detail now
  | interrupt token => exact consistent_interrupt h
  | crash token => exact consistent_crash h
  | recordCopy copy =>
    simp only [archiveStep]
    split
    · exact h
    · next hcopy => exact consistent_copy h hcopy
  | evaluateRetention epoch minimum now =>
    simp only [archiveStep]
    split
    · exact h
    · next hevaluated => exact consistent_retention h hevaluated

end Invariant

/-! ### Runs -/

/-- In a run whose manifests are written under the writer's own claim and verified before a new
export is claimed, a verified scope always has its manifest on disk. -/
theorem manifest_agrees (site : ArchiveSite) (s : ArchiveSystem)
    (hscope : s.catalog.scope = none) (hworkers : ∀ token, s.workers token = none)
    (actions : List ArchiveAction) (h : Steps (archiveStep site) Guarded s actions) :
    Always (archiveStep site) (Agrees site) s actions :=
  (always_of_invariant (fun _ action hs hguarded => consistent_step action hs hguarded) h
    (consistent_start hscope hworkers)).mono fun _ => Consistent.holds

/-! ### Two workers and three workers -/

def sampleSite : ArchiveSite where
  source := ⟨1, "identity", 2, 0, 100, 2, "revision", "scope"⟩
  output := "archive"
  manifestPath := "archive/manifest.json"
  configuration := "configuration"
  manifestDigest manifest := "manifest " ++ toString manifest.exportStartedAt
  aggregateDigest files := String.join (files.map (·.2))

def emptySystem : ArchiveSystem := ⟨emptyCatalog, ⟨fun _ => none, none, none⟩, fun _ => none⟩

/-- Claim the scope and publish its one file. -/
def published (token : Uuid) (now : Int) : List ArchiveAction := [
  .startExport token now,
  .exportRows token now [⟨"part-00000.parquet", "rows", 3, 30, 20⟩],
  .publishFile token]

/-- Write the manifest and catalogue it as exported. -/
def exported (token : Uuid) (now : Int) : List ArchiveAction := [
  .writeManifest token now now, .hashForSidecar token, .writeSidecar token, .hashManifest token,
  .readManifest token, .readSidecar token, .finishVerify token true, .markExported token now]

/-- The second worker takes over from one that crashed, its export is copied and evaluated. -/
def takeover : List ArchiveAction :=
  published 1 0 ++ [.crash 1] ++ published 2 1000000000 ++ exported 2 1000000000 ++
    [.markVerified 2 1000000000, .recordPrimary 2 10 1000000000,
      .recordCopy ⟨.secondary, "fake", "store", "manifest 1000000000", "rows", 30, 3, true, none,
        "readback", "objects", 1100000000⟩,
      .evaluateRetention ⟨true, true, "completed"⟩ 1 90000000000]

theorem manifest_agrees_after_crash :
    Always (archiveStep sampleSite) (Agrees sampleSite) emptySystem takeover :=
  manifest_agrees sampleSite emptySystem rfl (fun _ => rfl) _ (by decide +kernel)

example : (run (archiveStep sampleSite) emptySystem takeover).catalog.scope.map (·.state) =
    some .retentionEligible := by decide +kernel

/-- A worker writes its manifest after another one exported and verified its own; and a worker
marks its digest as verified after another one, under a claim of its own, wrote a new manifest. -/
theorem late_workers_break_agreement :
    ¬ Agrees sampleSite (run (archiveStep sampleSite) emptySystem
      (published 1 0 ++ published 2 1000000000 ++ exported 2 1000000000 ++
        [.markVerified 2 1000000000, .writeManifest 1 1000000001 1000000001])) ∧
    ¬ Agrees sampleSite (run (archiveStep sampleSite) emptySystem
      (published 1 0 ++ exported 1 0 ++ [.startExport 2 1000000000, .crash 2] ++
        published 3 2000000000 ++ [.writeManifest 3 2000000000 2000000000,
          .markVerified 1 2000000001])) := by
  constructor
  · decide +kernel
  · decide +kernel

end PumpResearch.Archive
