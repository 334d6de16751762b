import PumpResearch.Candidates.Tasks

/-! The durable budget of provider requests. A reservation is counted in its minute, for its
provider and its class, under one lock; a stored one admits its page again without a count. -/
namespace PumpResearch.SecurityEnrichment
open Candidates KeyedTable

/-! ### Limits -/

/-- The bounds of the policy on requests and pages. -/
structure RequestLimits where
  providerRequestsPerMinute : Nat
  transactionHistoryRequestsPerMinute : Nat
  holderRequestsPerMinute : Nat
  walletGraphRequestsPerMinute : Nat
  maxPagesPerTask : Nat

/-- `request_limit_for`. -/
def RequestLimits.requestLimitFor (limits : RequestLimits) (analysisType : String) : Nat :=
  if analysisType = "HOLDER_SNAPSHOT" then limits.holderRequestsPerMinute
  else if analysisType ∈ ["WALLET_CLUSTER_ANALYSIS", "FUNDING_GRAPH_ANALYSIS"] then
    limits.walletGraphRequestsPerMinute
  else if analysisType ∈ ["TRADER_DISTRIBUTION", "LIQUIDITY_EVENT_ANALYSIS"] then
    limits.transactionHistoryRequestsPerMinute
  else limits.providerRequestsPerMinute

/-! ### Reservations -/

/-- What a page identity spells. -/
structure PageIdentity where
  attempt : Nat
  page : Nat
deriving DecidableEq

/-- The document whose digest identifies a reservation. -/
structure BudgetDocument where
  task : Uuid
  provider : String
  budgetClass : String
  page : PageIdentity
deriving DecidableEq

/-- SHA-256 over canonical JSON, and the UUID of a name. -/
structure BudgetIdentities where
  digest : BudgetDocument → String
  uuid5 : String → Uuid

/-- Digests of different documents and UUIDs of different names differ. -/
structure BudgetIdentities.Separating (ids : BudgetIdentities) : Prop where
  digest : Function.Injective ids.digest
  uuid5 : Function.Injective ids.uuid5

structure BudgetReservation where
  id : Uuid
  semanticKey : String
  candidateTaskId : Uuid
  provider : String
  budgetClass : String
  reservedAt : Int
deriving DecidableEq

abbrev ReservationTable := Table BudgetReservation.semanticKey

/-- One request for a reservation. -/
structure ReservationRequest where
  taskId : Uuid
  provider : String
  budgetClass : String
  page : PageIdentity
  now : Int

def ReservationRequest.document (request : ReservationRequest) : BudgetDocument :=
  ⟨request.taskId, request.provider, request.budgetClass, request.page⟩

def reservationOf (ids : BudgetIdentities) (request : ReservationRequest) :
    BudgetReservation where
  id := ids.uuid5 ("pump-research:security-budget:" ++ ids.digest request.document)
  semanticKey := ids.digest request.document
  candidateTaskId := request.taskId
  provider := request.provider
  budgetClass := request.budgetClass
  reservedAt := request.now

/-- A reservation counts in the minute that starts at an instant. -/
def InMinute (minute : Int) (row : BudgetReservation) : Prop :=
  minute ≤ row.reservedAt ∧ row.reservedAt < minute + seconds 60

instance decidableInMinute (minute : Int) : DecidablePred (InMinute minute) :=
  fun _ => inferInstanceAs (Decidable (_ ∧ _))

def globalUsed (provider : String) (minute : Int) (reservations : ReservationTable) : Nat :=
  reservations.rows.countP fun row => row.provider = provider ∧ InMinute minute row

def classUsed (provider budgetClass : String) (minute : Int) (reservations : ReservationTable) :
    Nat :=
  reservations.rows.countP fun row =>
    row.provider = provider ∧ row.budgetClass = budgetClass ∧ InMinute minute row

/-- The first read of `reserve_provider_request`, before the lock. -/
def reservationExists (ids : BudgetIdentities) (request : ReservationRequest)
    (reservations : ReservationTable) : Bool :=
  (reservations.find? (ids.digest request.document)).isSome

/-- An insert that does nothing on a conflict of either constraint. -/
def insertReservation (row : BudgetReservation) (reservations : ReservationTable) :
    ReservationTable :=
  if reservations.rows.any (·.id = row.id) then reservations else reservations.insertNew row

/-- `reserve_provider_request` under its lock; `universalDue` is whether an universal security
task is due within the next minute. -/
def reserveProviderRequest (ids : BudgetIdentities) (limits : RequestLimits) (universalDue : Bool)
    (request : ReservationRequest) (reservations : ReservationTable) : ReservationTable × Bool :=
  if request.provider = "solana_rpc" ∧ request.budgetClass = "HOLDER_SNAPSHOT" ∧ universalDue then
    (reservations, false)
  else if limits.providerRequestsPerMinute ≤
        globalUsed request.provider (minuteStart request.now) reservations ∨
      limits.requestLimitFor request.budgetClass ≤
        classUsed request.provider request.budgetClass (minuteStart request.now) reservations then
    (reservations, false)
  else (insertReservation (reservationOf ids request) reservations, true)

/-! ### The limits hold -/

/-- No minute holds more reservations than the limits allow. -/
def WithinLimits (limits : RequestLimits) (reservations : ReservationTable) : Prop :=
  ∀ provider instant,
    globalUsed provider (minuteStart instant) reservations ≤ limits.providerRequestsPerMinute ∧
    ∀ budgetClass, classUsed provider budgetClass (minuteStart instant) reservations ≤
      limits.requestLimitFor budgetClass

section Reserve
variable {ids : BudgetIdentities} {limits : RequestLimits} {universalDue : Bool}
  {request : ReservationRequest} {reservations : ReservationTable}

theorem insertReservation_cases (row : BudgetReservation) (reservations : ReservationTable) :
    insertReservation row reservations = reservations ∨
      (insertReservation row reservations).rows = reservations.rows ++ [row] := by
  unfold insertReservation
  split
  · exact .inl rfl
  · cases hfind : reservations.find? row.semanticKey with
    | none => exact .inr (Table.rows_insertNew_of_find?_eq_none hfind)
    | some old => exact .inl (Table.insertNew_eq_self hfind)

/-- A call is refused, or it admits a request within both limits. -/
theorem reserveProviderRequest_cases (ids : BudgetIdentities) (limits : RequestLimits)
    (universalDue : Bool) (request : ReservationRequest) (reservations : ReservationTable) :
    reserveProviderRequest ids limits universalDue request reservations = (reservations, false) ∨
      (reserveProviderRequest ids limits universalDue request reservations =
          (insertReservation (reservationOf ids request) reservations, true) ∧
        globalUsed request.provider (minuteStart request.now) reservations <
          limits.providerRequestsPerMinute ∧
        classUsed request.provider request.budgetClass (minuteStart request.now) reservations <
          limits.requestLimitFor request.budgetClass) := by
  unfold reserveProviderRequest
  split
  · exact .inl rfl
  · split
    · exact .inl rfl
    · next hfree =>
      rw [not_or, not_le, not_le] at hfree
      exact .inr ⟨rfl, hfree⟩

/-- An instant counts in the minute it belongs to. -/
theorem inMinute_iff {row : BudgetReservation} {instant : Int} :
    InMinute (minuteStart instant) row ↔ minuteStart row.reservedAt = minuteStart instant := by
  unfold InMinute minuteStart seconds
  omega

theorem withinLimits_reserve (h : WithinLimits limits reservations) :
    WithinLimits limits
      (reserveProviderRequest ids limits universalDue request reservations).1 := by
  cases reserveProviderRequest_cases ids limits universalDue request reservations with
  | inl hrefused =>
    rw [hrefused]
    exact h
  | inr hadmitted =>
    obtain ⟨hresult, hglobal, hclass⟩ := hadmitted
    rw [hresult]
    cases insertReservation_cases (reservationOf ids request) reservations with
    | inl hsame =>
      rw [hsame]
      exact h
    | inr hrows =>
      intro provider instant
      obtain ⟨hglobals, hclasses⟩ := h provider instant
      have hminute : InMinute (minuteStart instant) (reservationOf ids request) ↔
          minuteStart request.now = minuteStart instant := inMinute_iff
      refine ⟨?_, fun budgetClass => ?_⟩
      · rw [globalUsed, hrows, List.countP_append, List.countP_singleton]
        simp only [hminute, decide_eq_true_eq]
        split
        · next hcounted =>
          obtain ⟨rfl, hsame⟩ := hcounted
          rw [← hsame]
          exact hglobal
        · exact hglobals
      · have hclasses := hclasses budgetClass
        rw [classUsed, hrows, List.countP_append, List.countP_singleton]
        simp only [hminute, decide_eq_true_eq]
        split
        · next hcounted =>
          obtain ⟨rfl, rfl, hsame⟩ := hcounted
          rw [← hsame]
          exact hclass
        · exact hclasses

/-- What is admitted under separating identities is stored. -/
theorem stored_of_admitted (hids : ids.Separating)
    (hwritten : ∀ row ∈ reservations.rows,
      row.id = ids.uuid5 ("pump-research:security-budget:" ++ row.semanticKey))
    (h : (reserveProviderRequest ids limits universalDue request reservations).2 = true) :
    ∃ row ∈ (reserveProviderRequest ids limits universalDue request reservations).1.rows,
      row.semanticKey = ids.digest request.document := by
  cases reserveProviderRequest_cases ids limits universalDue request reservations with
  | inl hrefused =>
    rw [hrefused] at h
    cases h
  | inr hadmitted =>
    rw [hadmitted.1]
    unfold insertReservation
    split
    · next htaken =>
      obtain ⟨row, hrow, hid⟩ := List.any_eq_true.mp htaken
      rw [decide_eq_true_eq, hwritten row hrow] at hid
      have hkey := hids.uuid5 hid
      exact ⟨row, hrow, (String.append_right_inj _).mp hkey⟩
    · cases hfind : reservations.find? (reservationOf ids request).semanticKey with
      | none =>
        refine ⟨reservationOf ids request, ?_, rfl⟩
        rw [Table.rows_insertNew_of_find?_eq_none hfind]
        exact List.mem_append_right _ (List.mem_singleton_self _)
      | some old =>
        obtain ⟨hmem, hkey⟩ := Table.find?_eq_some_iff.mp hfind
        rw [Table.insertNew_eq_self hfind]
        exact ⟨old, hmem, hkey⟩

end Reserve

end PumpResearch.SecurityEnrichment
