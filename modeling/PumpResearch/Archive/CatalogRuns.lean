import PumpResearch.Archive.Catalog
import PumpResearch.Library.Runs

/-! All orders of the catalog's transactions. A verified scope is frozen whoever calls late, and
a scope stays retention eligible until a manifest is verified or copied again, whatever the
evaluations in between say. -/
namespace PumpResearch.Archive
open KeyedTable Results Runs

/-! ### Transactions in any order -/

/-- One call of a catalog operation. Claims may be stale. -/
inductive CatalogAction where
  | claim (source : SourceScope) (token : Uuid) (now leaseSeconds : Int)
  | markExported (claim : ArchiveClaim) (manifest : ExportedManifest) (now : Int)
  | markVerified (manifestSha256 : String) (detail : VerificationDetail)
      (analyticalReadsPassed : Bool) (now : Int)
  | markFailed (claim : ArchiveClaim) (detail : FailureDetail) (now : Int)
  | recordCopy (copy : CopyVerification)
  | evaluateRetention (epoch : EpochStatus) (minimumHotRetentionDays : Nat) (now : Int)

/-- A transaction that raises leaves the catalog as it was. -/
def settle {α : Type} (catalog : Catalog) (result : Except CatalogError α) (after : α → Catalog) :
    Catalog :=
  match result with
  | .error _ => catalog
  | .ok value => after value

def catalogStep (catalog : Catalog) : CatalogAction → Catalog
  | .claim source token now leaseSeconds =>
    settle catalog (claimArchiveScope source token now leaseSeconds catalog) (·.1)
  | .markExported claim manifest now =>
    settle catalog (markArchiveExported claim manifest now catalog) id
  | .markVerified manifestSha256 detail passed now =>
    settle catalog (markArchiveVerified manifestSha256 detail passed now catalog) id
  | .markFailed claim detail now => markArchiveFailed claim detail now catalog
  | .recordCopy copy => settle catalog (recordCopyVerification copy catalog) id
  | .evaluateRetention epoch minimumHotRetentionDays now =>
    settle catalog (evaluateRetentionEligibility epoch minimumHotRetentionDays now catalog) (·.1)

/-! ### What a transaction does -/

/-- The digests of a copy are those of the scope's manifest. -/
def CopyVerification.Matches (copy : CopyVerification) (scope : ArchiveScope) : Prop :=
  scope.manifestSha256 = some copy.manifestSha256 ∧
    scope.aggregateFileSha256 = some copy.aggregateFileSha256

/-- The parts of a verified scope that never change. -/
structure SameManifest (before after : ArchiveScope) : Prop where
  source : after.source = before.source
  manifestPath : after.manifestPath = before.manifestPath
  manifestSha256 : after.manifestSha256 = before.manifestSha256
  aggregateFileSha256 : after.aggregateFileSha256 = before.aggregateFileSha256

theorem SameManifest.refl (scope : ArchiveScope) : SameManifest scope scope := ⟨rfl, rfl, rfl, rfl⟩

theorem SameManifest.trans {a b c : ArchiveScope} (hab : SameManifest a b)
    (hbc : SameManifest b c) : SameManifest a c where
  source := hbc.source.trans hab.source
  manifestPath := hbc.manifestPath.trans hab.manifestPath
  manifestSha256 := hbc.manifestSha256.trans hab.manifestSha256
  aggregateFileSha256 := hbc.aggregateFileSha256.trans hab.aggregateFileSha256

/-- What a transaction can do to the scope row, with the guard under which it does it. -/
inductive ScopeChange (before : Catalog) (action : CatalogAction) : Option ArchiveScope → Prop where
  | unchanged : ScopeChange before action before.scope
  | claimed {scope : ArchiveScope} {token : Uuid} {now leaseSeconds : Int}
      (hscope : before.scope = some scope ∨ before.scope = none ∧ scope = pendingScope scope.source now)
      (hunverified : ¬ scope.state.IsVerified) :
      ScopeChange before action (some (claimedScope scope token now leaseSeconds))
  | exported {scope : ArchiveScope} {manifest : ExportedManifest} {now : Int}
      (hscope : before.scope = some scope) (hexporting : scope.state = .exporting) :
      ScopeChange before action (some (exportedScope manifest now scope))
  | verified {scope : ArchiveScope} {sha : String} {detail : VerificationDetail} {passed : Bool}
      {now : Int} (haction : action = .markVerified sha detail passed now)
      (hscope : before.scope = some scope) (hdigest : scope.manifestSha256 = some sha) :
      ScopeChange before action (some (verifiedScope detail passed now scope))
  | failed {scope : ArchiveScope} {detail : FailureDetail} {now : Int}
      (hscope : before.scope = some scope) (hclaimed : scope.claim ≠ none) :
      ScopeChange before action (some (failedScope detail now scope))
  | copied {scope : ArchiveScope} {now : Int} (hscope : before.scope = some scope)
      (hverified : scope.state.IsVerified) :
      ScopeChange before action (some { scope with state := .independentlyCopied, updatedAt := now })
  | eligible {scope : ArchiveScope} {epoch : EpochStatus} {minimum : Nat} {now : Int}
      (haction : action = .evaluateRetention epoch minimum now)
      (hscope : before.scope = some scope) (heligible :
        (retentionEvaluation epoch minimum now scope before.copies.rows).eligible = true) :
      ScopeChange before action (some { scope with state := .retentionEligible, updatedAt := now })

/-- Recording a copy adds at most a row with the digests of the verified scope. -/
theorem recordCopyVerification_copies {copy : CopyVerification} {catalog catalog' : Catalog}
    (h : recordCopyVerification copy catalog = .ok catalog') :
    ∃ scope, catalog.scope = some scope ∧ scope.state.IsVerified ∧ copy.Matches scope ∧
      (∀ row ∈ catalog'.copies.rows, row ∈ catalog.copies.rows ∨ row = copy) ∧
      (∀ row ∈ catalog.copies.rows, row ∈ catalog'.copies.rows) ∧
      (∃ row ∈ catalog'.copies.rows, row.copyRole = copy.copyRole ∧
        row.manifestSha256 = copy.manifestSha256 ∧
        row.aggregateFileSha256 = copy.aggregateFileSha256) ∧
      (catalog'.scope = some scope ∨ copy.copyRole = .secondary ∧ catalog'.scope =
        some { scope with state := .independentlyCopied, updatedAt := copy.verifiedAt }) := by
  unfold recordCopyVerification at h
  split at h
  · cases h
  · split at h
    · cases h
    · next scope hscope =>
      split at h
      · cases h
      · next hverified =>
        rw [not_not] at hverified
        split at h
        · cases h
        · next hdigests =>
          push Not at hdigests
          simp only at h
          split at h
          · cases h
          · next hstored =>
            rw [not_not] at hstored
            cases h
            obtain ⟨row, hfound, hsha⟩ := Option.map_eq_some_iff.mp hstored
            obtain ⟨hrow, hkey⟩ := Table.find?_eq_some_iff.mp hfound
            have hrole : row.copyRole = copy.copyRole := congrArg (·.1) hkey
            have haggregate : row.aggregateFileSha256 = copy.aggregateFileSha256 :=
              congrArg (·.2.2) hkey
            have hrows : ∀ other ∈ (catalog.copies.insertNew copy).rows,
                other ∈ catalog.copies.rows ∨ other = copy :=
              Table.forall_insertNew (.inr rfl) fun other hother => .inl hother
            refine ⟨scope, hscope, hverified, hdigests, hrows,
              fun other hother => Table.mem_insertNew_of_mem hother,
              ⟨row, hrow, hrole, hsha, haggregate⟩, ?_⟩
            split
            · next hsecondary => exact .inr ⟨hsecondary, rfl⟩
            · exact .inl rfl

/-- An evaluation writes its own row, and moves the scope when it is eligible. -/
theorem evaluateRetention_eq_ok {epoch : EpochStatus} {minimum : Nat} {now : Int}
    {catalog : Catalog} {result : Catalog × RetentionEvaluation}
    (h : evaluateRetentionEligibility epoch minimum now catalog = .ok result) :
    1 ≤ minimum ∧ ∃ scope, catalog.scope = some scope ∧
      let evaluation := retentionEvaluation epoch minimum now scope catalog.copies.rows
      result = ({ catalog with
        evaluations := catalog.evaluations.insertNew evaluation
        scope := some (if evaluation.eligible then
          { scope with state := .retentionEligible, updatedAt := now } else scope) }, evaluation) := by
  unfold evaluateRetentionEligibility at h
  split at h
  · cases h
  · next hminimum =>
    split at h
    · cases h
    · next scope hscope =>
      cases h
      exact ⟨not_lt.mp hminimum, scope, hscope, rfl⟩

/-- What a transaction can do to the recorded copies. -/
structure CopiesChange (before : Catalog) (action : CatalogAction) (after : Catalog) : Prop where
  kept : ∀ copy ∈ before.copies.rows, copy ∈ after.copies.rows
  recorded : ∀ copy ∈ after.copies.rows, copy ∈ before.copies.rows ∨
    action = .recordCopy copy ∧ ∃ scope ∈ before.scope, scope.state.IsVerified ∧ copy.Matches scope

theorem CopiesChange.of_eq {before after : Catalog} {action : CatalogAction}
    (h : after.copies = before.copies) : CopiesChange before action after where
  kept _ hcopy := by rwa [h]
  recorded _ hcopy := .inl (by rwa [h] at hcopy)

theorem settle_ok {α : Type} {catalog : Catalog} {after : α → Catalog} {P : Catalog → Prop}
    {result : Except CatalogError α} (h0 : P catalog) (h : ∀ value, result = .ok value →
      P (after value)) : P (settle catalog result after) := by
  cases result with
  | error _ => exact h0
  | ok value => exact h value rfl

/-- Every transaction changes the scope row in one of these ways. -/
theorem catalogStep_scope (catalog : Catalog) (action : CatalogAction) :
    ScopeChange catalog action (catalogStep catalog action).scope := by
  cases action with
  | claim source token now leaseSeconds =>
    refine settle_ok (P := fun after => ScopeChange catalog _ after.scope) .unchanged fun result h => ?_
    cases claimArchiveScope_cases h with
    | inl hreused =>
      obtain ⟨scope, hscope, _, hafter, _⟩ := hreused
      rw [hafter, ← hscope]
      exact .unchanged
    | inr hclaimed =>
      obtain ⟨scope, hscope, hunverified, _, hafter, _⟩ := hclaimed
      rw [hafter]
      refine .claimed ?_ hunverified
      cases hscope with
      | inl hscope => exact .inl hscope
      | inr hnew => exact .inr ⟨hnew.1, by rw [hnew.2]; rfl⟩
  | markExported claim manifest now =>
    refine settle_ok (P := fun after => ScopeChange catalog _ after.scope) .unchanged fun result h => ?_
    obtain ⟨scope, hscope, _, hexporting, hafter⟩ := markArchiveExported_eq_ok h
    simp only [id_eq, hafter]
    exact .exported hscope hexporting
  | markVerified manifestSha256 detail passed now =>
    refine settle_ok (P := fun after => ScopeChange catalog _ after.scope) .unchanged fun result h => ?_
    obtain ⟨scope, hscope, hdigest, hafter⟩ := markArchiveVerified_eq_ok h
    simp only [id_eq, hafter]
    exact .verified rfl hscope hdigest
  | markFailed claim detail now =>
    cases markArchiveFailed_cases catalog claim detail now with
    | inl hsame =>
      simp only [catalogStep, hsame]
      exact .unchanged
    | inr hfailed =>
      obtain ⟨scope, token, hscope, _, htoken, hafter⟩ := hfailed
      simp only [catalogStep, hafter]
      refine .failed hscope fun hnone => ?_
      rw [hnone] at htoken
      cases htoken
  | recordCopy copy =>
    refine settle_ok (P := fun after => ScopeChange catalog _ after.scope) .unchanged fun result h => ?_
    obtain ⟨scope, hscope, hverified, _, _, _, _, hafter⟩ := recordCopyVerification_copies h
    cases hafter with
    | inl hsame =>
      rw [id_eq, hsame, ← hscope]
      exact .unchanged
    | inr hcopied =>
      simp only [id_eq, hcopied.2]
      exact .copied hscope hverified
  | evaluateRetention epoch minimum now =>
    refine settle_ok (P := fun after => ScopeChange catalog _ after.scope) .unchanged
      fun result h => ?_
    obtain ⟨_, scope, hscope, hresult⟩ := evaluateRetention_eq_ok h
    rw [hresult]
    simp only
    split
    · next heligible => exact .eligible rfl hscope heligible
    · rw [← hscope]
      exact .unchanged

theorem claimArchiveScope_copies {source : SourceScope} {token : Uuid} {now leaseSeconds : Int}
    {catalog : Catalog} {result : Catalog × ArchiveClaim}
    (h : claimArchiveScope source token now leaseSeconds catalog = .ok result) :
    result.1.copies = catalog.copies := by
  simp only [claimArchiveScope] at h
  split at h
  · cases h
  · split at h
    · split at h
      · cases h
      · cases h
        rfl
    · split at h
      · cases h
      · cases h
        rfl

theorem catalogStep_copies (catalog : Catalog) (action : CatalogAction) :
    CopiesChange catalog action (catalogStep catalog action) := by
  cases action with
  | claim source token now leaseSeconds =>
    refine settle_ok (P := CopiesChange catalog _) (.of_eq rfl) fun result h => ?_
    exact .of_eq (claimArchiveScope_copies h)
  | markExported claim manifest now =>
    refine settle_ok (P := CopiesChange catalog _) (.of_eq rfl) fun result h => ?_
    simp only [markArchiveExported, bind_eq_ok, pure_eq_ok] at h
    obtain ⟨scope, _, hresult⟩ := h
    exact .of_eq (by rw [← hresult]; rfl)
  | markVerified manifestSha256 detail passed now =>
    refine settle_ok (P := CopiesChange catalog _) (.of_eq rfl) fun result h => ?_
    unfold markArchiveVerified at h
    split at h
    · cases h
    · split at h
      · cases h
      · cases h
        exact .of_eq rfl
  | markFailed claim detail now =>
    refine .of_eq ?_
    simp only [catalogStep, markArchiveFailed]
    split
    · rfl
    · split
      · rfl
      · rfl
  | recordCopy copy =>
    refine settle_ok (P := CopiesChange catalog _) (.of_eq rfl) fun result h => ?_
    obtain ⟨scope, hscope, hverified, hmatches, hrows, hkept, _⟩ := recordCopyVerification_copies h
    refine ⟨hkept, fun row hrow => ?_⟩
    cases hrows row hrow with
    | inl hold => exact .inl hold
    | inr hnew => exact .inr ⟨hnew ▸ rfl, scope, hscope, hverified, hnew ▸ hmatches⟩
  | evaluateRetention epoch minimum now =>
    refine settle_ok (P := CopiesChange catalog _) (.of_eq rfl) fun result h => ?_
    obtain ⟨_, scope, _, hresult⟩ := evaluateRetention_eq_ok h
    exact .of_eq (by rw [hresult])

/-! ### Eligible evaluations -/

/-- The checks of an evaluation on the row of the scope. -/
structure ArchiveChecked (scope : ArchiveScope) (copies : List CopyVerification) : Prop where
  archiveVerified : scope.verifiedAt.isSome = true
  manifestVerified : scope.verificationDetail.any (·.manifestVerified) = true
  primary : ∃ copy ∈ copies, copy.copyRole = .primary
  secondary : ∃ copy ∈ copies, copy.copyRole = .secondary ∧ copy.independenceAsserted = true
  schema : scope.source.archiveSchemaVersion = 2
  fullyCovered : scope.verificationDetail.any (·.sourceScopeFullyCovered) = true
  notFailed : scope.state ≠ .failed
  analyticalReads : scope.analyticalReadsVerifiedAt.isSome = true

/-- The checks of an evaluation on the epoch and the clock. -/
structure EpochChecked (epoch : EpochStatus) (minimumHotRetentionDays : Nat) (now endAt : Int) :
    Prop where
  dataValid : epoch.dataValid = true
  currentDataValid : epoch.currentDataValid = true
  closed : epoch.status ∈ ["completed", "aborted", "invalid"]
  hotAge : endAt ≤ now - days minimumHotRetentionDays

theorem eligible_iff {epoch : EpochStatus} {minimum : Nat} {now : Int} {scope : ArchiveScope}
    {copies : List CopyVerification} :
    (retentionEvaluation epoch minimum now scope copies).eligible = true ↔
      ArchiveChecked scope copies ∧ EpochChecked epoch minimum now scope.source.endAt := by
  have hall : (retentionEvaluation epoch minimum now scope copies).eligible = true ↔
      ∀ check ∈ retentionChecks epoch minimum now scope copies, check.2 = true := by
    simp [retentionEvaluation, List.isEmpty_iff, List.filter_eq_nil_iff]
  rw [hall]
  simp only [retentionChecks, List.forall_mem_cons, List.any_eq_true, decide_eq_true_eq,
    Bool.and_eq_true]
  constructor
  · intro h
    obtain ⟨h1, h2, h3, h4, h5, h6, h7, h8, h9, h10, h11, _⟩ := h
    exact ⟨⟨h1, h2, h3, h4, h5, h6, h7, h11⟩, ⟨h8.1, h8.2, h9, h10⟩⟩
  · intro h
    exact ⟨h.1.archiveVerified, h.1.manifestVerified, h.1.primary, h.1.secondary, h.1.schema,
      h.1.fullyCovered, h.1.notFailed, ⟨h.2.dataValid, h.2.currentDataValid⟩, h.2.closed,
      h.2.hotAge, h.1.analyticalReads, fun _ hnil => absurd hnil List.not_mem_nil⟩

/-! ### Frozen scopes -/

/-- A scope that is claimed is exporting, one that was verified stays so, and the copies carry
the digests of a verified manifest. -/
structure Settled (catalog : Catalog) : Prop where
  claimed : ∀ scope ∈ catalog.scope, scope.claim ≠ none → scope.state = .exporting
  verified : ∀ scope ∈ catalog.scope, scope.verifiedAt ≠ none → scope.state.IsVerified
  copies : ∀ copy ∈ catalog.copies.rows, ∃ scope ∈ catalog.scope,
    scope.state.IsVerified ∧ copy.Matches scope

/-- A verified scope is verified afterwards, with the same manifest. -/
def FrozenTo (before after : Catalog) : Prop :=
  ∀ scope ∈ before.scope, scope.state.IsVerified →
    ∃ scope' ∈ after.scope, scope'.state.IsVerified ∧ SameManifest scope scope'

theorem FrozenTo.trans {a b c : Catalog} (hab : FrozenTo a b) (hbc : FrozenTo b c) :
    FrozenTo a c := by
  intro scope hscope hverified
  obtain ⟨mid, hmid, hmidVerified, hsame⟩ := hab scope hscope hverified
  obtain ⟨last, hlast, hlastVerified, hsame'⟩ := hbc mid hmid hmidVerified
  exact ⟨last, hlast, hlastVerified, hsame.trans hsame'⟩

section Freeze
variable {catalog : Catalog}

theorem Settled.unclaimed (h : Settled catalog) {scope : ArchiveScope}
    (hscope : scope ∈ catalog.scope) (hverified : scope.state.IsVerified) : scope.claim = none := by
  by_contra hclaim
  rw [h.claimed scope hscope hclaim] at hverified
  exact absurd hverified (by decide)

/-- No transaction takes a scope out of the verified states or changes its manifest. -/
theorem frozen_step (h : Settled catalog) (action : CatalogAction) :
    FrozenTo catalog (catalogStep catalog action) := by
  intro scope hscope hverified
  have hsome : catalog.scope = some scope := hscope
  have hchange := catalogStep_scope catalog action
  generalize (catalogStep catalog action).scope = after at hchange
  cases hchange with
  | unchanged => exact ⟨scope, hscope, hverified, SameManifest.refl scope⟩
  | claimed hbefore hunverified =>
    cases hbefore with
    | inl hbefore =>
      rw [hsome] at hbefore
      cases hbefore
      exact absurd hverified hunverified
    | inr hnone =>
      rw [hsome] at hnone
      cases hnone.1
  | exported hbefore hexporting =>
    rw [hsome] at hbefore
    cases hbefore
    rw [hexporting] at hverified
    exact absurd hverified (by decide)
  | verified _ hbefore _ =>
    rw [hsome] at hbefore
    cases hbefore
    exact ⟨_, rfl, (by decide : ScopeState.IsVerified .verified), ⟨rfl, rfl, rfl, rfl⟩⟩
  | failed hbefore hclaimed =>
    rw [hsome] at hbefore
    cases hbefore
    exact absurd (h.unclaimed hscope hverified) hclaimed
  | copied hbefore _ =>
    rw [hsome] at hbefore
    cases hbefore
    exact ⟨_, rfl, (by decide : ScopeState.IsVerified .independentlyCopied), ⟨rfl, rfl, rfl, rfl⟩⟩
  | eligible _ hbefore _ =>
    rw [hsome] at hbefore
    cases hbefore
    exact ⟨_, rfl, (by decide : ScopeState.IsVerified .retentionEligible), ⟨rfl, rfl, rfl, rfl⟩⟩

theorem CopyVerification.Matches.congr {copy : CopyVerification} {scope scope' : ArchiveScope}
    (h : copy.Matches scope) (hsame : SameManifest scope scope') : copy.Matches scope' :=
  ⟨hsame.manifestSha256.trans h.1, hsame.aggregateFileSha256.trans h.2⟩

theorem settled_scope (h : Settled catalog) {after : Option ArchiveScope}
    {action : CatalogAction} (hchange : ScopeChange catalog action after) {scope : ArchiveScope} (hscope : scope ∈ after) :
    (scope.claim ≠ none → scope.state = .exporting) ∧
      (scope.verifiedAt ≠ none → scope.state.IsVerified) := by
  cases hchange with
  | unchanged => exact ⟨h.claimed scope hscope, h.verified scope hscope⟩
  | claimed hbefore hunverified =>
    cases hscope
    refine ⟨fun _ => rfl, fun hverifiedAt => ?_⟩
    cases hbefore with
    | inl hbefore => exact absurd (h.verified _ hbefore hverifiedAt) hunverified
    | inr hnone =>
      rw [claimedScope, hnone.2] at hverifiedAt
      exact absurd rfl hverifiedAt
  | exported hbefore hexporting =>
    cases hscope
    refine ⟨fun hclaim => absurd rfl hclaim, fun hverifiedAt => ?_⟩
    have hverified := h.verified _ hbefore hverifiedAt
    rw [hexporting] at hverified
    exact absurd hverified (by decide)
  | verified _ hbefore _ =>
    cases hscope
    exact ⟨fun hclaim => absurd rfl hclaim, fun _ => (by decide : ScopeState.IsVerified .verified)⟩
  | failed hbefore hclaimed =>
    cases hscope
    refine ⟨fun hclaim => absurd rfl hclaim, fun hverifiedAt => ?_⟩
    exact absurd (h.unclaimed hbefore (h.verified _ hbefore hverifiedAt)) hclaimed
  | copied hbefore hverified =>
    cases hscope
    refine ⟨fun hclaim => absurd (h.unclaimed hbefore hverified) hclaim, fun _ => ?_⟩
    exact (by decide : ScopeState.IsVerified .independentlyCopied)
  | eligible _ hbefore heligible =>
    cases hscope
    have hverifiedAt := (eligible_iff.mp heligible).1.archiveVerified
    have hverified := h.verified _ hbefore (Option.isSome_iff_ne_none.mp hverifiedAt)
    refine ⟨fun hclaim => absurd (h.unclaimed hbefore hverified) hclaim, fun _ => ?_⟩
    exact (by decide : ScopeState.IsVerified .retentionEligible)

theorem settled_step (h : Settled catalog) (action : CatalogAction) :
    Settled (catalogStep catalog action) where
  claimed _ hscope := (settled_scope h (catalogStep_scope catalog action) hscope).1
  verified _ hscope := (settled_scope h (catalogStep_scope catalog action) hscope).2
  copies copy hcopy := by
    have hfrozen := frozen_step h action
    have hkept : (∃ scope ∈ catalog.scope, scope.state.IsVerified ∧ copy.Matches scope) →
        ∃ scope ∈ (catalogStep catalog action).scope, scope.state.IsVerified ∧
          copy.Matches scope := by
      intro hbefore
      obtain ⟨scope, hscope, hverified, hmatches⟩ := hbefore
      obtain ⟨scope', hscope', hverified', hsame⟩ := hfrozen scope hscope hverified
      exact ⟨scope', hscope', hverified', hmatches.congr hsame⟩
    cases (catalogStep_copies catalog action).recorded copy hcopy with
    | inl hold => exact hkept (h.copies copy hold)
    | inr hnew => exact hkept hnew.2

theorem settled_empty : Settled emptyCatalog where
  claimed _ h := by cases h
  verified _ h := by cases h
  copies _ h := by cases h

theorem settled_run (actions : List CatalogAction) :
    Settled (run catalogStep emptyCatalog actions) := by
  have hkept : ∀ catalog action, Settled catalog → Settled (catalogStep catalog action) :=
    fun _ action hs => settled_step hs action
  exact (always_of_kept hkept settled_empty actions).final

theorem frozen_run (h : Settled catalog) (actions : List CatalogAction) :
    FrozenTo catalog (run catalogStep catalog actions) := by
  induction actions generalizing catalog with
  | nil => exact fun scope hscope hverified => ⟨scope, hscope, hverified, SameManifest.refl scope⟩
  | cons action rest ih =>
    exact (frozen_step h action).trans (ih (settled_step h action))

end Freeze

/-! ### What an eligible scope has behind it -/

section History
variable {catalog : Catalog}

/-- A copy that is there was there before, or recorded by one of the transactions. -/
theorem recorded_of_mem_copies {actions : List CatalogAction} {copy : CopyVerification}
    (hcopy : copy ∈ (run catalogStep catalog actions).copies.rows) :
    copy ∈ catalog.copies.rows ∨ .recordCopy copy ∈ actions := by
  induction actions generalizing catalog with
  | nil => exact .inl hcopy
  | cons action rest ih =>
    cases ih hcopy with
    | inl hstep =>
      cases (catalogStep_copies catalog action).recorded copy hstep with
      | inl hbefore => exact .inl hbefore
      | inr hnew => exact .inr (hnew.1 ▸ List.mem_cons_self)
    | inr hrest => exact .inr (List.mem_cons_of_mem _ hrest)

/-- One of the transactions marks this digest as verified, with its analytical reads. -/
def ReadsPassed (actions : List CatalogAction) (sha : String) : Prop :=
  ∃ detail now, .markVerified sha detail true now ∈ actions

/-- Analytical reads that passed, passed on the manifest of the verified scope. -/
def ReadsOf (past : List CatalogAction) (catalog : Catalog) : Prop :=
  ∀ scope ∈ catalog.scope, scope.analyticalReadsVerifiedAt ≠ none →
    scope.state.IsVerified ∧ ∃ sha, scope.manifestSha256 = some sha ∧ ReadsPassed past sha

theorem ReadsOf.mono {past more : List CatalogAction} (h : ReadsOf past catalog)
    (hsub : ∀ action ∈ past, action ∈ more) : ReadsOf more catalog := by
  intro scope hscope hreads
  obtain ⟨hverified, sha, hsha, detail, now, hpast⟩ := h scope hscope hreads
  exact ⟨hverified, sha, hsha, detail, now, hsub _ hpast⟩

theorem readsOf_scope {past : List CatalogAction} (hs : Settled catalog) (h : ReadsOf past catalog)
    {action : CatalogAction} {after : Option ArchiveScope}
    (hchange : ScopeChange catalog action after) {scope : ArchiveScope} (hscope : scope ∈ after)
    (hreads : scope.analyticalReadsVerifiedAt ≠ none) :
    scope.state.IsVerified ∧ ∃ sha, scope.manifestSha256 = some sha ∧
      ReadsPassed (past ++ [action]) sha := by
  have h' : ReadsOf (past ++ [action]) catalog :=
    h.mono fun _ hpast => List.mem_append_left _ hpast
  cases hchange with
  | unchanged => exact h' scope hscope hreads
  | claimed hbefore hunverified =>
    cases hscope
    cases hbefore with
    | inl hbefore => exact absurd (h' _ hbefore hreads).1 hunverified
    | inr hnew =>
      rw [claimedScope, hnew.2] at hreads
      exact absurd rfl hreads
  | exported hbefore hexporting =>
    cases hscope
    have hverified := (h' _ hbefore hreads).1
    rw [hexporting] at hverified
    exact absurd hverified (by decide)
  | @verified before sha detail passed now haction hbefore hdigest =>
    cases hscope
    refine ⟨(by decide : ScopeState.IsVerified .verified), ?_⟩
    cases passed with
    | true => exact ⟨sha, hdigest, detail, now, by simp [haction]⟩
    | false => exact (h' _ hbefore hreads).2
  | failed hbefore hclaimed =>
    cases hscope
    exact absurd (hs.unclaimed hbefore (h' _ hbefore hreads).1) hclaimed
  | copied hbefore _ =>
    cases hscope
    exact ⟨(by decide : ScopeState.IsVerified .independentlyCopied), (h' _ hbefore hreads).2⟩
  | eligible _ hbefore _ =>
    cases hscope
    exact ⟨(by decide : ScopeState.IsVerified .retentionEligible), (h' _ hbefore hreads).2⟩

theorem readsOf_run (actions : List CatalogAction) :
    ReadsOf actions (run catalogStep emptyCatalog actions) := by
  have hempty : ReadsOf [] emptyCatalog := fun _ hscope => by cases hscope
  have hrun : ∀ (past rest : List CatalogAction) (catalog : Catalog), Settled catalog →
      ReadsOf past catalog → ReadsOf (past ++ rest) (run catalogStep catalog rest) := by
    intro past rest
    induction rest generalizing past with
    | nil =>
      intro catalog _ hreads
      rwa [List.append_nil]
    | cons action rest ih =>
      intro catalog hs hreads
      have hstep : ReadsOf (past ++ [action]) (catalogStep catalog action) := fun scope hscope =>
        readsOf_scope hs hreads (catalogStep_scope catalog action) hscope
      have hrest := ih (past ++ [action]) (catalogStep catalog action) (settled_step hs action) hstep
      rwa [List.append_assoc, List.singleton_append] at hrest
  exact hrun [] actions emptyCatalog settled_empty hempty

/-- What an eligible evaluation rests on. -/
structure SoundlyEligible (actions : List CatalogAction) (catalog : Catalog) (epoch : EpochStatus)
    (minimumHotRetentionDays : Nat) (now : Int) : Prop where
  independent : ∃ scope ∈ catalog.scope, ∃ copy ∈ catalog.copies.rows,
    .recordCopy copy ∈ actions ∧ copy.copyRole = .secondary ∧ copy.independenceAsserted = true ∧
      copy.Matches scope
  readsPassed : ∃ scope ∈ catalog.scope, ∃ sha, scope.manifestSha256 = some sha ∧
    ReadsPassed actions sha
  epochChecked : ∃ scope ∈ catalog.scope,
    EpochChecked epoch minimumHotRetentionDays now scope.source.endAt

theorem soundly_eligible (actions : List CatalogAction) {epoch : EpochStatus} {minimum : Nat}
    {now : Int} {result : Catalog × RetentionEvaluation}
    (h : evaluateRetentionEligibility epoch minimum now (run catalogStep emptyCatalog actions) =
      .ok result) (heligible : result.2.eligible = true) :
    SoundlyEligible actions (run catalogStep emptyCatalog actions) epoch minimum now := by
  obtain ⟨_, scope, hscope, hresult⟩ := evaluateRetention_eq_ok h
  rw [hresult] at heligible
  have hchecks := eligible_iff.mp heligible
  refine ⟨⟨scope, hscope, ?_⟩, ⟨scope, hscope, ?_⟩, scope, hscope, hchecks.2⟩
  · obtain ⟨copy, hcopy, hsecondary, hasserted⟩ := hchecks.1.secondary
    refine ⟨copy, hcopy, ?_, hsecondary, hasserted, ?_⟩
    · cases recorded_of_mem_copies hcopy with
      | inl hbefore => exact absurd hbefore List.not_mem_nil
      | inr hrecorded => exact hrecorded
    · obtain ⟨other, hother, _, hmatches⟩ := (settled_run actions).copies copy hcopy
      rw [hscope] at hother
      cases hother
      exact hmatches
  · have hreads := Option.isSome_iff_ne_none.mp hchecks.1.analyticalReads
    exact (readsOf_run actions scope hscope hreads).2

/-- Verified scopes are frozen, their copies carry their digests, and an eligible evaluation
rests on an independent copy of the manifest, its reads, and a valid, closed, old enough epoch. -/
theorem verified_scopes_frozen (actions later : List CatalogAction) :
    let catalog := run catalogStep emptyCatalog actions
    (∀ scope ∈ catalog.scope, scope.state.IsVerified → scope.claim = none ∧
      ∃ scope' ∈ (run catalogStep emptyCatalog (actions ++ later)).scope,
        scope'.state.IsVerified ∧ SameManifest scope scope' ∧ scope'.claim = none) ∧
    (∀ copy ∈ catalog.copies.rows, ∃ scope ∈ catalog.scope,
      scope.state.IsVerified ∧ copy.Matches scope) ∧
    ∀ epoch minimum now result,
      evaluateRetentionEligibility epoch minimum now catalog = .ok result →
      result.2.eligible = true → SoundlyEligible actions catalog epoch minimum now := by
  have hsettled := settled_run actions
  have hlater := settled_run (actions ++ later)
  rw [run_append] at hlater ⊢
  refine ⟨fun scope hscope hverified => ⟨hsettled.unclaimed hscope hverified, ?_⟩,
    hsettled.copies, fun epoch minimum now result h => soundly_eligible actions h⟩
  obtain ⟨scope', hscope', hverified', hsame⟩ := frozen_run hsettled later scope hscope hverified
  exact ⟨scope', hscope', hverified', hsame, hlater.unclaimed hscope' hverified'⟩

/-- A copied and verified archive, evaluated once while its epoch is valid. -/
def evaluatedArchive : List CatalogAction := [
  .claim ⟨1, "identity", 2, 0, 100, 2, "revision", "scope"⟩ 3 0 900,
  .markExported ⟨some 3, none, .pending⟩ ⟨"manifest.json", "sha", "aggregate", 3, 20⟩ 1,
  .markVerified "sha" ⟨true, "sha", "identity", "aggregate", 3, 1, true, true⟩ true 2,
  .recordCopy ⟨.primary, "filesystem", "archive", "sha", "aggregate", 20, 3, false, none,
    "readback", "files", 3⟩,
  .recordCopy ⟨.secondary, "s3", "bucket", "sha", "aggregate", 20, 3, true, some "provider",
    "readback", "objects", 4⟩,
  .evaluateRetention ⟨true, true, "completed"⟩ 1 90000000000]

theorem evaluated_archive_sound :
    SoundlyEligible evaluatedArchive (run catalogStep emptyCatalog evaluatedArchive)
      ⟨true, true, "completed"⟩ 1 90000000000 :=
  (verified_scopes_frozen evaluatedArchive []).2.2 _ _ _ _ rfl (by decide +kernel)

end History

/-! ### The latest evaluation -/

/-- A catalog with what its most recent evaluation said. -/
structure EvaluatedCatalog where
  catalog : Catalog
  latest : Option RetentionEvaluation

def evaluatedStep (s : EvaluatedCatalog) (action : CatalogAction) : EvaluatedCatalog where
  catalog := catalogStep s.catalog action
  latest :=
    match action with
    | .evaluateRetention epoch minimumHotRetentionDays now =>
      match evaluateRetentionEligibility epoch minimumHotRetentionDays now s.catalog with
      | .error _ => s.latest
      | .ok (_, evaluation) => some evaluation
    | _ => s.latest

/-- A scope is retention eligible only if its most recent evaluation was eligible. -/
def LatestEligible (s : EvaluatedCatalog) : Prop :=
  ∀ scope ∈ s.catalog.scope, scope.state = .retentionEligible → s.latest.any (·.eligible) = true

instance decidableLatestEligible : DecidablePred LatestEligible :=
  fun s => inferInstanceAs (Decidable (∀ scope ∈ s.catalog.scope, _))

/-- No eligible scope is evaluated again under an invalid or open epoch, or a longer hot age. -/
def StillChecked (s : EvaluatedCatalog) : CatalogAction → Prop
  | .evaluateRetention epoch minimumHotRetentionDays now =>
    1 ≤ minimumHotRetentionDays → ∀ scope ∈ s.catalog.scope, scope.state = .retentionEligible →
      EpochChecked epoch minimumHotRetentionDays now scope.source.endAt
  | _ => True

/-- A retention eligible scope keeps passing the checks on its own row. -/
def RowChecked (s : EvaluatedCatalog) : Prop :=
  ∀ scope ∈ s.catalog.scope, scope.state = .retentionEligible →
    ArchiveChecked scope s.catalog.copies.rows

section Latest
variable {s : EvaluatedCatalog}

theorem ArchiveChecked.mono {scope : ArchiveScope} {copies copies' : List CopyVerification}
    (h : ArchiveChecked scope copies) (hcopies : ∀ copy ∈ copies, copy ∈ copies') :
    ArchiveChecked scope copies' where
  archiveVerified := h.archiveVerified
  manifestVerified := h.manifestVerified
  primary := by
    obtain ⟨copy, hcopy, hprimary⟩ := h.primary
    exact ⟨copy, hcopies copy hcopy, hprimary⟩
  secondary := by
    obtain ⟨copy, hcopy, hsecondary⟩ := h.secondary
    exact ⟨copy, hcopies copy hcopy, hsecondary⟩
  schema := h.schema
  fullyCovered := h.fullyCovered
  notFailed := h.notFailed
  analyticalReads := h.analyticalReads

/-- A scope that is retention eligible after a transaction was so before, or is evaluated as
eligible by it. -/
theorem eligible_after {catalog : Catalog} {action : CatalogAction} {after : Option ArchiveScope}
    (hchange : ScopeChange catalog action after) {scope : ArchiveScope} (hscope : scope ∈ after)
    (hstate : scope.state = .retentionEligible) :
    scope ∈ catalog.scope ∨ ∃ before epoch minimum now,
      action = .evaluateRetention epoch minimum now ∧ catalog.scope = some before ∧
      scope = { before with state := .retentionEligible, updatedAt := now } ∧
      (retentionEvaluation epoch minimum now before catalog.copies.rows).eligible = true := by
  cases hchange with
  | unchanged => exact .inl hscope
  | claimed => cases hscope; cases hstate
  | exported => cases hscope; cases hstate
  | verified => cases hscope; cases hstate
  | failed => cases hscope; cases hstate
  | copied => cases hscope; cases hstate
  | @eligible before epoch minimum now haction hbefore heligible =>
    cases hscope
    exact .inr ⟨before, epoch, minimum, now, haction, hbefore, rfl, heligible⟩

theorem rowChecked_step (h : RowChecked s) (action : CatalogAction) :
    RowChecked (evaluatedStep s action) := by
  intro scope hscope hstate
  have hcopies := (catalogStep_copies s.catalog action).kept
  refine ArchiveChecked.mono ?_ hcopies
  cases eligible_after (catalogStep_scope s.catalog action) hscope hstate with
  | inl hbefore => exact h scope hbefore hstate
  | inr hevaluated =>
    obtain ⟨before, epoch, minimum, now, _, hbefore, hscope', heligible⟩ := hevaluated
    have hchecked := (eligible_iff.mp heligible).1
    rw [hscope']
    exact ⟨hchecked.archiveVerified, hchecked.manifestVerified, hchecked.primary,
      hchecked.secondary, hchecked.schema, hchecked.fullyCovered, ScopeState.noConfusion,
      hchecked.analyticalReads⟩

theorem latestEligible_kept (h : LatestEligible s) {action : CatalogAction}
    (hlatest : (evaluatedStep s action).latest = s.latest)
    (haction : ∀ epoch minimum now, action ≠ .evaluateRetention epoch minimum now) :
    LatestEligible (evaluatedStep s action) := by
  intro scope hscope hstate
  rw [hlatest]
  cases eligible_after (catalogStep_scope s.catalog action) hscope hstate with
  | inl hbefore => exact h scope hbefore hstate
  | inr hevaluated =>
    obtain ⟨_, epoch, minimum, now, heq, _⟩ := hevaluated
    exact absurd heq (haction epoch minimum now)

/-- An evaluation keeps the property exactly when a scope that is eligible stays so. -/
theorem latestEligible_evaluate_iff (hrow : RowChecked s) (h : LatestEligible s)
    (epoch : EpochStatus) (minimum : Nat) (now : Int) :
    LatestEligible (evaluatedStep s (.evaluateRetention epoch minimum now)) ↔
      StillChecked s (.evaluateRetention epoch minimum now) := by
  cases hresult : evaluateRetentionEligibility epoch minimum now s.catalog with
  | error e =>
    have hsame : evaluatedStep s (.evaluateRetention epoch minimum now) = s := by
      simp only [evaluatedStep, catalogStep, settle, hresult]
    rw [hsame]
    refine iff_of_true h fun hminimum scope hscope => ?_
    simp [evaluateRetentionEligibility, Option.mem_def.mp hscope, not_lt.mpr hminimum] at hresult
  | ok result =>
    obtain ⟨hminimum, scope, hscope, hevaluated⟩ := evaluateRetention_eq_ok hresult
    rw [hevaluated] at hresult
    have hchecked : StillChecked s (.evaluateRetention epoch minimum now) ↔
        (scope.state = .retentionEligible →
          EpochChecked epoch minimum now scope.source.endAt) := by
      simp [StillChecked, hscope, hminimum]
    simp only [hchecked, LatestEligible, evaluatedStep, catalogStep, settle, hresult,
      Option.mem_def, Option.some.injEq, forall_eq', Option.any_some]
    cases heligible : (retentionEvaluation epoch minimum now scope s.catalog.copies.rows).eligible with
    | true => exact iff_of_true (fun _ => rfl) fun _ => (eligible_iff.mp heligible).2
    | false =>
      rw [if_neg Bool.false_ne_true]
      refine imp_congr_right fun hstate => iff_of_false Bool.false_ne_true fun hepoch => ?_
      have htrue := eligible_iff.mpr ⟨hrow scope hscope hstate, hepoch⟩
      rw [heligible] at htrue
      exact Bool.false_ne_true htrue

/-- A step keeps the property exactly when it does not take a check from an eligible scope. -/
theorem latestEligible_step_iff (hrow : RowChecked s) (h : LatestEligible s)
    (action : CatalogAction) : LatestEligible (evaluatedStep s action) ↔ StillChecked s action := by
  cases action with
  | evaluateRetention epoch minimum now => exact latestEligible_evaluate_iff hrow h epoch minimum now
  | claim source token now leaseSeconds =>
    exact iff_of_true (latestEligible_kept h rfl fun _ _ _ => CatalogAction.noConfusion) trivial
  | markExported claim manifest now =>
    exact iff_of_true (latestEligible_kept h rfl fun _ _ _ => CatalogAction.noConfusion) trivial
  | markVerified manifestSha256 detail passed now =>
    exact iff_of_true (latestEligible_kept h rfl fun _ _ _ => CatalogAction.noConfusion) trivial
  | markFailed claim detail now =>
    exact iff_of_true (latestEligible_kept h rfl fun _ _ _ => CatalogAction.noConfusion) trivial
  | recordCopy copy =>
    exact iff_of_true (latestEligible_kept h rfl fun _ _ _ => CatalogAction.noConfusion) trivial

end Latest

/-- An eligible state reflects the latest evaluation in every state of a run exactly when no
evaluation finds an eligible scope whose epoch or age does not pass any more. -/
theorem latest_eligible_iff (actions : List CatalogAction) :
    Always evaluatedStep LatestEligible ⟨emptyCatalog, none⟩ actions ↔
      Steps evaluatedStep StillChecked ⟨emptyCatalog, none⟩ actions := by
  have hkept : ∀ s action, RowChecked s → RowChecked (evaluatedStep s action) :=
    fun _ action h => rowChecked_step h action
  have hstep : ∀ s action, RowChecked s → LatestEligible s →
      (LatestEligible (evaluatedStep s action) ↔ StillChecked s action) :=
    fun _ action hrow h => latestEligible_step_iff hrow h action
  refine always_iff_steps hkept hstep ?_ ?_ actions
  · exact fun _ hscope => by cases hscope
  · exact fun _ hscope => by cases hscope

/-- The epoch turns invalid, the evaluation says so, and the state stays. -/
theorem eligible_after_ineligible_evaluation :
    ¬ Always evaluatedStep LatestEligible ⟨emptyCatalog, none⟩
      (evaluatedArchive ++ [.evaluateRetention ⟨true, false, "invalid"⟩ 1 90000000001]) := by
  intro h
  exact absurd h.final (by decide +kernel)

end PumpResearch.Archive
