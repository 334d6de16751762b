import PumpResearch.Collection.BoostFeeds
import PumpResearch.Collection.EnrichmentChanges
import PumpResearch.Library.Framing
import PumpResearch.Library.LatestRows

/-! Polling an unchanged boost feed once more. The second collection is silent exactly when the first
one left each token with a latest row of the content that the feed has for it. -/
namespace PumpResearch.Collection
open Discovery KeyedTable LatestRows PythonJson Results Utf8

/-! ### Texts that columns store -/

section Columns

theorem codePoint_val (c : Char) : (Fin.ofNat 0x110000 c.toNat : CodePoint).val = c.toNat := by
  have hvalid := c.valid
  simp only [UInt32.isValidChar, Nat.isValidChar] at hvalid
  rw [Fin.val_ofNat]
  refine Nat.mod_eq_of_lt ?_
  simp only [Char.toNat]
  omega

theorem text_injective : Function.Injective text := by
  intro s t h
  have hcode : Function.Injective fun c : Char => (Fin.ofNat 0x110000 c.toNat : CodePoint) := by
    intro c d hcd
    have hval := congrArg Fin.val hcd
    rw [codePoint_val, codePoint_val] at hval
    exact Char.toNat_inj.mp hval
  exact String.toList_inj.mp (List.map_injective_iff.mpr hcode h)

theorem recordLocator_injective : Function.Injective recordLocator := by
  intro i j h
  have hdigits := text_injective (List.append_cancel_right (List.append_cancel_left h))
  have hlists : Nat.toDigits 10 i = Nat.toDigits 10 j := by
    simpa using congrArg String.toList hdigits
  rw [← Nat.ofDigitChars_ten_toDigits (n := i), hlists, Nat.ofDigitChars_ten_toDigits]

/-- Visible characters of ASCII. -/
def Visible (s : Text) : Prop := ∀ c ∈ s, 0x20 ≤ c.val ∧ c.val ≤ 0x7f

theorem visible_of_all {s : Text}
    (h : (s.all fun c => decide (0x20 ≤ c.val ∧ c.val ≤ 0x7f)) = true) : Visible s :=
  fun c hc => of_decide_eq_true (List.all_eq_true.mp h c hc)

theorem fitsText_visible {limit : Nat} {s : Text} (hlength : s.length ≤ limit) (h : Visible s) :
    fitsText limit (some s) = true := by
  have hnul : hasNul s = false := by
    rw [hasNul, List.any_eq_false]
    intro c hc
    have hrange := h c hc
    simp only [decide_eq_true_eq]
    omega
  have hsurrogate : hasSurrogate s = false := by
    rw [hasSurrogate, List.any_eq_false]
    intro c hc
    have hrange := h c hc
    simp only [isSurrogate, Bool.and_eq_true, decide_eq_true_eq]
    omega
  simp [fitsText, hlength, hnul, hsurrogate]

theorem visible_digest (digest : HexDigest) : Visible digest.digits := by
  intro c hc
  have hhex := digest.hex c hc
  have hcodes : code '0' = 0x30 ∧ code '9' = 0x39 ∧ code 'A' = 0x41 ∧ code 'F' = 0x46 ∧
      code 'a' = 0x61 ∧ code 'f' = 0x66 := ⟨rfl, rfl, rfl, rfl, rfl, rfl⟩
  unfold hexDigit? at hhex
  split at hhex
  · omega
  · split at hhex
    · omega
    · split at hhex
      · omega
      · cases hhex

theorem visible_locator (position : Nat) : Visible (recordLocator position) := by
  have hstart : Visible (text "records[") := visible_of_all (by decide)
  have hend : Visible (text "]") := visible_of_all (by decide)
  intro c hc
  rw [recordLocator, List.mem_append, List.mem_append] at hc
  cases hc with
  | inl hmem => exact hstart c hmem
  | inr hrest =>
    cases hrest with
    | inr hmem => exact hend c hmem
    | inl hdigits =>
      obtain ⟨digit, hdigit, heq⟩ := List.mem_map.mp hdigits
      have hisDigit := Framing.isDigit_of_mem_toDigits (by simpa using hdigit)
      rw [← heq, codePoint_val]
      rw [Char.isDigit, Bool.and_eq_true, decide_eq_true_eq, decide_eq_true_eq] at hisDigit
      have hlow : 48 ≤ digit.toNat := hisDigit.1
      have hhigh : digit.toNat ≤ 57 := hisDigit.2
      omega

theorem length_locator {position : Nat} (h : position ≤ 268435455) :
    (recordLocator position).length ≤ 256 := by
  have hlt : position < 10 ^ 10 := lt_of_le_of_lt h (by norm_num)
  have hdigits := (Nat.length_toDigits_le_iff (by decide : 1 < 10) (by decide : 0 < 10)).mpr hlt
  have hstart : (text "records[").length = 8 ∧ (text "]").length = 1 := ⟨rfl, rfl⟩
  rw [recordLocator, List.length_append, List.length_append, hstart.1, hstart.2]
  rw [text, List.length_map, String.toList_ofList]
  omega

theorem hasNul_take {s : Text} (n : Nat) (h : hasNul s = false) : hasNul (s.take n) = false := by
  rw [hasNul, List.any_eq_false] at h ⊢
  exact fun c hc => h c (List.mem_of_mem_take hc)

theorem hasSurrogate_take {s : Text} (n : Nat) (h : hasSurrogate s = false) :
    hasSurrogate (s.take n) = false := by
  rw [hasSurrogate, List.any_eq_false] at h ⊢
  exact fun c hc => h c (List.mem_of_mem_take hc)

theorem fitsText_bounded {value : Option Text} (limit : Nat) (h : storableText value = true) :
    fitsText limit (boundedNormalizedText value limit) = true := by
  cases value with
  | none => rfl
  | some s =>
    simp only [storableText, Option.all_some, Bool.and_eq_true, Bool.not_eq_true'] at h
    simp [fitsText, boundedNormalizedText, hasNul_take limit h.1, hasSurrogate_take limit h.2,
      List.length_take]

end Columns

/-! ### Metadata of a stored feed -/

section FeedLinks

theorem mem_itemsStrings {s : Text} {items : List JsonValue} :
    s ∈ itemsStrings items ↔ ∃ item ∈ items, s ∈ item.strings := by
  induction items with
  | nil => simp [itemsStrings]
  | cons item items ih => simp [itemsStrings, ih]

theorem itemsFloats_eq_nil {items : List JsonValue} (h : ∀ item ∈ items, item.floats = []) :
    itemsFloats items = [] := by
  induction items with
  | nil => rfl
  | cons item items ih =>
    rw [List.forall_mem_cons] at h
    rw [itemsFloats, h.1, ih h.2]
    rfl

/-- A value without floats whose strings can be stored. -/
def PlainJson (item : JsonValue) : Prop := (∀ s ∈ item.strings, Storable s) ∧ item.floats = []

theorem fitsJson_plain {items : List JsonValue} (h : ∀ item ∈ items, PlainJson item) :
    fitsJson (some items) = true := by
  have hstrings : postgresJsonStringFailure (.list items) = none := by
    rw [postgresJsonStringFailure_eq_none_iff]
    intro s hs
    rw [JsonValue.strings, mem_itemsStrings] at hs
    obtain ⟨item, hitem, hmem⟩ := hs
    exact (h item hitem).1 s hmem
  have hfloats : (JsonValue.list items).floats = [] := by
    rw [JsonValue.floats]
    exact itemsFloats_eq_nil fun item hitem => (h item hitem).2
  simp [fitsJson, jsonbFailure, hstrings, hfloats]

theorem storableText_iff {value : Option Text} :
    storableText value = true ↔ ∀ s ∈ value, Storable s := by
  cases value with
  | none => simp [storableText]
  | some s => simp [storableText, Storable]

theorem plainJson_jsonText {value : Option Text} (h : storableText value = true) :
    PlainJson (jsonText value) := by
  cases value with
  | none => exact ⟨by simp [jsonText, JsonValue.strings], rfl⟩
  | some s =>
    refine ⟨?_, rfl⟩
    simpa [jsonText, JsonValue.strings] using storableText_iff.mp h s rfl

/-- The texts that were read can be stored. -/
structure StorableLinks (read : FeedLinks) : Prop where
  website : storableText read.website = true
  twitter : storableText read.twitter = true
  telegram : storableText read.telegram = true
  other : ∀ item ∈ read.other, PlainJson item

theorem storableText_orText {a b : Option Text} (ha : storableText a = true)
    (hb : storableText b = true) : storableText (orText a b) = true := by
  unfold orText
  split
  · exact ha
  · exact hb

theorem plainJson_dump {link : BoostFeedLink} (htype : storableText link.linkType = true)
    (hlabel : storableText link.label = true) (hurl : storableText link.url = true) :
    PlainJson link.dump := by
  have hkeys : Storable (text "type") ∧ Storable (text "label") ∧ Storable (text "url") := by
    unfold Storable
    decide
  obtain ⟨htypeStrings, htypeFloats⟩ := plainJson_jsonText htype
  obtain ⟨hlabelStrings, hlabelFloats⟩ := plainJson_jsonText hlabel
  obtain ⟨hurlStrings, hurlFloats⟩ := plainJson_jsonText hurl
  constructor
  · intro s hs
    simp only [BoostFeedLink.dump, JsonValue.strings, entriesStrings, List.mem_cons,
      List.mem_append, List.not_mem_nil, or_false] at hs
    obtain heq | hmem | heq | hmem | heq | hmem := hs
    · exact heq ▸ hkeys.1
    · exact htypeStrings s hmem
    · exact heq ▸ hkeys.2.1
    · exact hlabelStrings s hmem
    · exact heq ▸ hkeys.2.2
    · exact hurlStrings s hmem
  · simp only [BoostFeedLink.dump, JsonValue.floats, entriesFloats, htypeFloats, hlabelFloats,
      hurlFloats, List.append_nil]

theorem StorableLinks.readLink {read : FeedLinks} (h : StorableLinks read) (lower : Text → Text)
    {link : BoostFeedLink} (htype : storableText link.linkType = true)
    (hlabel : storableText link.label = true) (hurl : storableText link.url = true) :
    StorableLinks (readLink lower read link) := by
  have hdump := plainJson_dump htype hlabel hurl
  have hplaced : StorableLinks
      (if text "twitter" <:+: lower ((orText link.linkType link.label).getD []) ∨
          lower ((orText link.linkType link.label).getD []) = text "x" then
        { read with twitter := orText read.twitter link.url }
      else if text "telegram" <:+: lower ((orText link.linkType link.label).getD []) then
        { read with telegram := orText read.telegram link.url }
      else if read.website = none then { read with website := link.url }
      else read) := by
    split
    · exact { h with twitter := storableText_orText h.twitter hurl }
    · split
      · exact { h with telegram := storableText_orText h.telegram hurl }
      · split
        · exact { h with website := hurl }
        · exact h
  unfold Collection.readLink
  simp only
  split
  · exact hplaced
  · refine { hplaced with other := fun item hitem => ?_ }
    cases List.mem_append.mp hitem with
    | inl hold => exact hplaced.other item hold
    | inr hnew => exact List.mem_singleton.mp hnew ▸ hdump

theorem StorableLinks.foldl {read : FeedLinks} (h : StorableLinks read) (lower : Text → Text)
    {links : List BoostFeedLink} (hlinks : ∀ link ∈ links, storableText link.linkType = true ∧
      storableText link.label = true ∧ storableText link.url = true) :
    StorableLinks (links.foldl (Collection.readLink lower) read) := by
  induction links generalizing read with
  | nil => exact h
  | cons link links ih =>
    rw [List.forall_mem_cons] at hlinks
    obtain ⟨⟨htype, hlabel, hurl⟩, hrest⟩ := hlinks
    exact ih (h.readLink lower htype hlabel hurl) hrest

/-- The metadata of a record that is stored with its response fits the columns. -/
theorem feedMetadata_fits {Digest : Type} (hashing : EnrichmentHashing Digest)
    (lower : Text → Text) (request : FeedRequest) {entry : TrackedRecord}
    (hposition : entry.position ≤ 268435455) (hstorable : entry.record.storable = true) :
    ((feedMetadataDelivery lower request entry).values hashing).fits = true := by
  rw [BoostFeedRecord.storable, Bool.and_eq_true, Bool.and_eq_true, List.all_eq_true] at hstorable
  obtain ⟨⟨hicon, hheader⟩, hlinks⟩ := hstorable
  have hread : StorableLinks ((entry.record.links.getD []).foldl (readLink lower)
      ⟨none, none, none, []⟩) := by
    refine StorableLinks.foldl ⟨rfl, rfl, rfl, fun _ h => absurd h List.not_mem_nil⟩ lower ?_
    intro link hlink
    have hall := hlinks link hlink
    rw [Bool.and_eq_true, Bool.and_eq_true] at hall
    exact ⟨hall.1.1, hall.1.2, hall.2⟩
  have hprovider : fitsText 64 (some providerName) = true := by decide
  have hother : fitsJson (feedMetadata lower entry.record).otherLinks = true := by
    simp only [feedMetadata]
    split
    · rfl
    · exact fitsJson_plain hread.other
  simp only [TokenMetadataEvent.fits, EnrichmentRow.fits, MetadataDelivery.values,
    feedMetadataDelivery, MetadataCreate.normalized, hprovider,
    fitsText_visible (length_locator hposition) (visible_locator _),
    fitsText_visible (entry.record.recordSha256.length_eq).le (visible_digest _), hother]
  simp only [feedMetadata, fitsText_bounded _ hicon, fitsText_bounded _ hheader,
    fitsText_bounded _ hread.website, fitsText_bounded _ hread.twitter,
    fitsText_bounded _ hread.telegram]
  rfl

end FeedLinks

/-! ### One change -/

section Changes

variable {Digest Row σ : Type} [DecidableEq Digest] [DecidableEq σ]
  {base : Row → EnrichmentRow Digest} {scope : Row → σ}

/-- The order of the query for the latest row. -/
def rowOrder (base : Row → EnrichmentRow Digest) (row : Row) : Int ×ₗ Uuid :=
  toLex ((base row).receivedAt, (base row).id)

/-- The latest row of the scope has the content of the new one. -/
abbrev Unchanged (base : Row → EnrichmentRow Digest) (scope : Row → σ) (rows : List Row)
    (values : Row) : Prop :=
  Current scope (rowOrder base) (fun row => (base row).contentSha256) rows values

/-- The rows after those of a batch were recorded in turn. -/
abbrev offerRows (base : Row → EnrichmentRow Digest) (scope : Row → σ) (rows batch : List Row) :
    List Row :=
  offer scope (rowOrder base) (fun row => (base row).contentSha256) rows batch

variable {values : Row} {rows : List Row} (accepts : Row → Bool) (conflict : String)

theorem recordChange_unchanged (h : Unchanged base scope rows values) :
    ∃ previous, recordChange base (fun row => scope row = scope values) accepts conflict values rows =
      .ok ⟨rows, none, false, previous⟩ := by
  obtain ⟨row, hrow, hcontent⟩ := h
  have hlatest : latestRow base (rows.filter fun row => scope row = scope values) = some row := hrow
  refine ⟨some row, ?_⟩
  simp [recordChange, hlatest, hcontent]

/-- A changed row of a new identity is inserted if the columns accept it. -/
theorem recordChange_changed (h : ¬ Unchanged base scope rows values)
    (hfresh : ∀ row ∈ rows, sameIdentity base values row = false) :
    recordChange base (fun row => scope row = scope values) accepts conflict values rows =
      if accepts values then
        .ok ⟨rows ++ [values], some values, true,
          latestRow base (rows.filter fun row => scope row = scope values)⟩
      else .error .data := by
  have hdiffers : (latestRow base (rows.filter fun row => scope row = scope values)).any
      (fun row => decide ((base row).contentSha256 = (base values).contentSha256)) = false := by
    rw [Option.any_eq_false]
    intro row hrow
    exact decide_eq_false fun hcontent => h ⟨row, hrow, hcontent⟩
  have hnew : rows.any (sameIdentity base values) = false :=
    List.any_eq_false.mpr fun row hrow => by simp [hfresh row hrow]
  have hnone : rows.find? (sameIdentity base values) = none :=
    List.find?_eq_none.mpr fun row hrow => by simp [hfresh row hrow]
  have hself : sameIdentity base values values = true := by simp [sameIdentity]
  simp [recordChange, hdiffers, hnew, hnone, hself, List.find?_append]

end Changes

section Repositories

variable {Digest : Type} [DecidableEq Digest] {hashing : EnrichmentHashing Digest}

/-! ### Boosts -/

abbrev BoostUnchanged (rows : List (BoostObservation Digest)) (values : BoostObservation Digest) :
    Prop := Unchanged BoostObservation.toEnrichmentRow BoostObservation.scope rows values

theorem recordBoost_unchanged {d : BoostDelivery} {store : BoostStore Digest}
    (h : BoostUnchanged store.observations (d.values hashing)) :
    recordBoost hashing d store = .ok (store, none) := by
  unfold recordBoost
  split
  · rfl
  · obtain ⟨previous, hchange⟩ := recordChange_unchanged (fun _ => d.fits)
      "boost identity maps to different content" h
    have hscope : (d.values hashing).scope = d.scope := rfl
    rw [hscope] at hchange
    rw [hchange]
    rfl

theorem recordBoost_changed {d : BoostDelivery} {store : BoostStore Digest}
    (hpresent : d.fact.isAbsent = false)
    (h : ¬ BoostUnchanged store.observations (d.values hashing))
    (hfresh : ∀ row ∈ store.observations,
      sameIdentity BoostObservation.toEnrichmentRow (d.values hashing) row = false)
    (hcomparable : ∀ row ∈ store.observations, row.Comparable (d.values hashing)) :
    if d.fits then ∃ events, recordBoost hashing d store =
      .ok (⟨store.observations ++ [d.values hashing], events⟩, some (d.values hashing))
    else recordBoost hashing d store = .error .data := by
  have hchange := recordChange_changed (fun _ => d.fits) "boost identity maps to different content"
    h hfresh
  have hscope : (d.values hashing).scope = d.scope := rfl
  rw [hscope] at hchange
  rw [recordBoost, hpresent, if_neg Bool.false_ne_true, hchange]
  cases d.fits with
  | false => simp [bind, Except.bind]
  | true =>
    have hevents : ∃ events, observationEvents (d.values hashing)
        (latestRow BoostObservation.toEnrichmentRow
          (store.observations.filter fun row => row.scope = d.scope)) = .ok events := by
      rw [observationEvents_ok_iff]
      intro p hp
      exact hcomparable p (List.mem_filter.mp (KeyedOrder.mem_of_firstMax hp)).1
    obtain ⟨events, hevents⟩ := hevents
    simp only [if_true, ok_bind, recordEvents, hevents]
    exact ⟨events.foldl insertEvent store.events, rfl⟩

/-! ### Metadata -/

theorem recordMetadata_absent {d : MetadataDelivery} {rows : List (TokenMetadataEvent Digest)}
    (hevidence : d.evidenceId.isSome) (habsent : d.metadata.isAbsent = true) :
    recordMetadata hashing d rows = .ok ⟨rows, none, false, none⟩ := by
  have hsome : d.evidenceId.isNone = false := Option.isNone_eq_false_iff.mpr hevidence
  rw [recordMetadata, hsome, if_neg Bool.false_ne_true, habsent, if_pos rfl]

abbrev MetadataUnchanged (rows : List (TokenMetadataEvent Digest))
    (values : TokenMetadataEvent Digest) : Prop :=
  Unchanged TokenMetadataEvent.toEnrichmentRow TokenMetadataEvent.scope rows values

/-- Metadata that fits is recorded. -/
theorem recordMetadata_present {d : MetadataDelivery} {rows : List (TokenMetadataEvent Digest)}
    (hevidence : d.evidenceId.isSome) (hpresent : d.metadata.isAbsent = false)
    (hfits : (d.values hashing).fits = true)
    (hfresh : ∀ row ∈ rows,
      sameIdentity TokenMetadataEvent.toEnrichmentRow (d.values hashing) row = false) :
    (recordMetadata hashing d rows).map RecordedChange.rows =
      .ok (offerRows TokenMetadataEvent.toEnrichmentRow TokenMetadataEvent.scope rows
        [d.values hashing]) := by
  have hsome : d.evidenceId.isNone = false := Option.isNone_eq_false_iff.mpr hevidence
  have hscope : (d.values hashing).scope = d.scope := rfl
  rw [recordMetadata, hsome, if_neg Bool.false_ne_true, hpresent, if_neg Bool.false_ne_true]
  rw [offerRows, offer, List.foldl_cons, List.foldl_nil]
  by_cases h : MetadataUnchanged rows (d.values hashing)
  · obtain ⟨previous, hchange⟩ := recordChange_unchanged TokenMetadataEvent.fits
      "metadata identity maps to different content" h
    rw [hscope] at hchange
    rw [hchange, appendChanged_of_current h]
    rfl
  · have hchange := recordChange_changed TokenMetadataEvent.fits
      "metadata identity maps to different content" h hfresh
    rw [hscope] at hchange
    rw [hchange, if_pos hfits, appendChanged_of_changed h]
    rfl

/-! ### Stored states -/

/-- Every stored row was recorded by its repository, from values that its columns accepted and that
can be compared. -/
structure Sound (hashing : EnrichmentHashing Digest) (store : FeedStore Digest) : Prop where
  observations : ∀ row ∈ store.boosts.observations, (∃ d : BoostDelivery,
    row = d.values hashing ∧ d.fits = true) ∧ ∀ metric, row.metric metric ≠ some .nan
  metadata : ∀ row ∈ store.metadata, ∃ d : MetadataDelivery, row = d.values hashing

/-- The identity of no stored row is that of a record's rows. -/
structure Fresh (lower : Text → Text) (request : FeedRequest) (entry : TrackedRecord)
    (store : FeedStore Digest) : Prop where
  observations : ∀ row ∈ store.boosts.observations,
    row.idempotencyKey ≠ (feedBoost request entry).key
  metadata : ∀ row ∈ store.metadata,
    row.idempotencyKey ≠ (feedMetadataDelivery lower request entry).key

/-- The columns hold the amounts of the record. -/
def TrackedRecord.fits (entry : TrackedRecord) : Bool :=
  fitsNumeric entry.fact.amount && fitsNumeric entry.fact.totalAmount

/-- The boosts that a collection offers. -/
def boostRows (hashing : EnrichmentHashing Digest) (request : FeedRequest)
    (entries : List TrackedRecord) : List (BoostObservation Digest) :=
  (entries.filter fun entry => !entry.fact.isAbsent).map fun entry =>
    (feedBoost request entry).values hashing

/-- The metadata that a collection offers. -/
def metadataRows (hashing : EnrichmentHashing Digest) (lower : Text → Text) (request : FeedRequest)
    (entries : List TrackedRecord) : List (TokenMetadataEvent Digest) :=
  (entries.filter fun entry => !(feedMetadata lower entry.record).isAbsent).map fun entry =>
    (feedMetadataDelivery lower request entry).values hashing

/-- What an accepted response says of each of its tracked records. -/
def Accepted (entry : TrackedRecord) : Prop :=
  entry.position ≤ 268435455 ∧ entry.record.storable = true

/-- The tables after some entries were collected. -/
structure Collected (hashing : EnrichmentHashing Digest) (lower : Text → Text)
    (request : FeedRequest) (entries : List TrackedRecord) (store store' : FeedStore Digest) :
    Prop where
  observations : store'.boosts.observations = offerRows BoostObservation.toEnrichmentRow
    BoostObservation.scope store.boosts.observations (boostRows hashing request entries)
  metadata : store'.metadata = offerRows TokenMetadataEvent.toEnrichmentRow
    TokenMetadataEvent.scope store.metadata (metadataRows hashing lower request entries)
  boosts : store'.boosts.observations = store.boosts.observations → store'.boosts = store.boosts

section Record
variable {lower : Text → Text} {request : FeedRequest} {entry : TrackedRecord}
  {store store' : FeedStore Digest}

theorem fitsInteger_of_le {n : Int} (hlow : 0 ≤ n) (hhigh : n ≤ 2147483647) :
    fitsInteger (some n) = true := by
  have hbound : (2 : Int) ^ 31 = 2147483648 := by norm_num
  rw [fitsInteger, Option.all_some, Bool.and_eq_true, decide_eq_true_eq, decide_eq_true_eq, hbound]
  omega

theorem feedBoost_fits (hposition : entry.position ≤ 268435455) :
    (feedBoost request entry).fits = entry.fits := by
  have hprovider : fitsText 64 (some providerName) = true := by decide
  have hlocator : fitsText 256 (some (recordLocator entry.position)) = true :=
    fitsText_visible (length_locator hposition) (visible_locator _)
  have hdigest : fitsText 64 (some entry.record.recordSha256.digits) = true :=
    fitsText_visible entry.record.recordSha256.length_eq.le (visible_digest _)
  have hrank : fitsInteger (some (entry.position + 1 : Int)) = true :=
    fitsInteger_of_le (by omega) (by omega)
  simp only [BoostDelivery.fits, feedBoost, hprovider, hlocator, hdigest, hrank, Bool.true_and,
    TrackedRecord.fits]
  rfl

theorem storedNumeric_ne_nan {d : PyDecimal} (h : isFiniteDecimal d = true) :
    storedNumeric d ≠ some .nan := by
  cases d with
  | finite negative coefficient exponent =>
    simp only [storedNumeric]
    split
    · intro heq
      cases heq
    · intro heq
      cases heq
  | infinity negative => cases h
  | nan => cases h

theorem bind_storedNumeric_ne_nan {value : Option PyDecimal}
    (h : value.all isFiniteDecimal = true) : value.bind storedNumeric ≠ some .nan := by
  cases value with
  | none =>
    intro heq
    cases heq
  | some d => exact storedNumeric_ne_nan h

omit [DecidableEq Digest] in
theorem feedBoost_ne_nan (metric : BoostMetric) :
    ((feedBoost request entry).values hashing).metric metric ≠ some .nan := by
  cases metric with
  | activeBoostCount =>
    intro heq
    cases heq
  | amount => exact bind_storedNumeric_ne_nan entry.record.amount_finite
  | totalAmount => exact bind_storedNumeric_ne_nan entry.record.totalAmount_finite

omit [DecidableEq Digest] in
theorem Sound.fresh_observations (h : Sound hashing store)
    (huuid : Function.Injective hashing.uuid5) (hfresh : Fresh lower request entry store) :
    ∀ row ∈ store.boosts.observations, sameIdentity BoostObservation.toEnrichmentRow
      ((feedBoost request entry).values hashing) row = false := by
  intro row hrow
  obtain ⟨⟨d, heq, _⟩, _⟩ := h.observations row hrow
  have hkey : (feedBoost request entry).key ≠ row.idempotencyKey :=
    (hfresh.observations row hrow).symm
  have hid : ((feedBoost request entry).values hashing).id ≠ row.id := by
    rw [heq]
    intro hsame
    refine hkey ?_
    rw [heq]
    exact huuid hsame
  rw [sameIdentity, Bool.or_eq_false_iff]
  exact ⟨decide_eq_false hid, decide_eq_false hkey⟩

omit [DecidableEq Digest] in
theorem Sound.fresh_metadata (h : Sound hashing store)
    (huuid : Function.Injective hashing.uuid5) (hfresh : Fresh lower request entry store) :
    ∀ row ∈ store.metadata, sameIdentity TokenMetadataEvent.toEnrichmentRow
      ((feedMetadataDelivery lower request entry).values hashing) row = false := by
  intro row hrow
  obtain ⟨d, heq⟩ := h.metadata row hrow
  have hkey : (feedMetadataDelivery lower request entry).key ≠ row.idempotencyKey :=
    (hfresh.metadata row hrow).symm
  have hid : ((feedMetadataDelivery lower request entry).values hashing).id ≠ row.id := by
    rw [heq]
    intro hsame
    refine hkey ?_
    rw [heq]
    exact huuid hsame
  rw [sameIdentity, Bool.or_eq_false_iff]
  exact ⟨decide_eq_false hid, decide_eq_false hkey⟩

omit [DecidableEq Digest] in
theorem Sound.comparable (h : Sound hashing store) :
    ∀ row ∈ store.boosts.observations, row.Comparable ((feedBoost request entry).values hashing) := by
  intro row hrow metric a ha b hb
  constructor
  · intro heq
    exact (h.observations row hrow).2 metric (heq ▸ ha)
  · intro heq
    exact feedBoost_ne_nan metric (heq ▸ hb)

/-- The transaction of a record whose amounts fit. -/
theorem collectRecord_fits (huuid : Function.Injective hashing.uuid5) (hsound : Sound hashing store)
    (hfresh : Fresh lower request entry store) (haccepted : Accepted entry)
    (hfits : entry.fits = true) :
    ∃ store', collectRecord lower request entry hashing store = .ok store' ∧
      Collected hashing lower request [entry] store store' := by
  have hboost : ∃ boosts stored, recordBoost hashing (feedBoost request entry) store.boosts =
      .ok (boosts, stored) ∧
      boosts.observations = offerRows BoostObservation.toEnrichmentRow BoostObservation.scope
        store.boosts.observations (boostRows hashing request [entry]) ∧
      (boosts.observations = store.boosts.observations → boosts = store.boosts) := by
    cases habsent : entry.fact.isAbsent with
    | true =>
      refine ⟨store.boosts, none, ?_, ?_, fun _ => rfl⟩
      · have hnone : (feedBoost request entry).fact.isAbsent = true := habsent
        rw [recordBoost, if_pos hnone]
      · rw [boostRows, List.filter_cons_of_neg (by simp [habsent])]
        rfl
    | false =>
      have hrows : boostRows hashing request [entry] =
          [(feedBoost request entry).values hashing] := by
        rw [boostRows, List.filter_cons_of_pos (by simp [habsent])]
        rfl
      rw [hrows, offerRows, offer, List.foldl_cons, List.foldl_nil]
      by_cases h : BoostUnchanged store.boosts.observations
          ((feedBoost request entry).values hashing)
      · exact ⟨store.boosts, none, recordBoost_unchanged h, (appendChanged_of_current h).symm,
          fun _ => rfl⟩
      · have hchanged := recordBoost_changed (d := feedBoost request entry) habsent h
          (hsound.fresh_observations huuid hfresh) hsound.comparable
        rw [feedBoost_fits haccepted.1, hfits, if_pos rfl] at hchanged
        obtain ⟨events, hrecorded⟩ := hchanged
        refine ⟨_, _, hrecorded, (appendChanged_of_changed h).symm, fun hsame => ?_⟩
        have hlength := congrArg List.length hsame
        simp at hlength
  have hmetadata : ∃ change, recordMetadata hashing (feedMetadataDelivery lower request entry)
      store.metadata = .ok change ∧
      change.rows = offerRows TokenMetadataEvent.toEnrichmentRow TokenMetadataEvent.scope
        store.metadata (metadataRows hashing lower request [entry]) := by
    cases habsent : (feedMetadata lower entry.record).isAbsent with
    | true =>
      refine ⟨_, recordMetadata_absent rfl habsent, ?_⟩
      rw [metadataRows, List.filter_cons_of_neg (by simp [habsent])]
      rfl
    | false =>
      have hrows : metadataRows hashing lower request [entry] =
          [(feedMetadataDelivery lower request entry).values hashing] := by
        rw [metadataRows, List.filter_cons_of_pos (by simp [habsent])]
        rfl
      have hrecorded := recordMetadata_present (d := feedMetadataDelivery lower request entry) rfl
        habsent (feedMetadata_fits hashing lower request haccepted.1 haccepted.2)
         (hsound.fresh_metadata huuid hfresh)
      obtain ⟨change, hchange, hrowsEq⟩ := map_eq_ok.mp hrecorded
      exact ⟨change, hchange, by rw [hrows, hrowsEq]⟩
  obtain ⟨boosts, stored, hrecorded, hobservations, hsame⟩ := hboost
  obtain ⟨change, hchange, hrows⟩ := hmetadata
  refine ⟨⟨boosts, change.rows⟩, ?_, hobservations, hrows, hsame⟩
  rw [collectRecord, hrecorded, ok_bind, hchange]
  rfl

/-- A record whose amounts do not fit is refused: no stored row has its content. -/
theorem collectRecord_refused (huuid : Function.Injective hashing.uuid5)
    (hdigest : Function.Injective hashing.boost) (hsound : Sound hashing store)
    (hfresh : Fresh lower request entry store) (haccepted : Accepted entry)
    (hfits : entry.fits = false) :
    collectRecord lower request entry hashing store = .error .data := by
  have hpresent : entry.fact.isAbsent = false := by
    rw [← Bool.not_eq_true]
    intro habsent
    simp only [BoostCreate.isAbsent, Bool.and_eq_true, Option.isNone_iff_eq_none] at habsent
    rw [TrackedRecord.fits, habsent.1.2, habsent.2] at hfits
    cases hfits
  have hchanged : ¬ BoostUnchanged store.boosts.observations
      ((feedBoost request entry).values hashing) := by
    intro h
    obtain ⟨row, hrow, hcontent⟩ := h
    obtain ⟨⟨d, heq, hd⟩, _⟩ := hsound.observations row (mem_latest hrow).1
    rw [heq] at hcontent
    have hfact : d.fact = entry.fact := hdigest hcontent
    rw [BoostDelivery.fits, Bool.and_eq_true, Bool.and_eq_true, hfact] at hd
    rw [TrackedRecord.fits, hd.1.2, hd.2] at hfits
    cases hfits
  have hrecorded := recordBoost_changed (d := feedBoost request entry) hpresent hchanged
    (hsound.fresh_observations huuid hfresh) hsound.comparable
  rw [feedBoost_fits haccepted.1, hfits, if_neg Bool.false_ne_true] at hrecorded
  rw [collectRecord, hrecorded]
  rfl

end Record

/-! ### One collection -/

section Collections
variable {lower : Text → Text} {request : FeedRequest} {entry : TrackedRecord}
  {entries : List TrackedRecord} {store store' : FeedStore Digest}

omit [DecidableEq Digest] in
theorem boostRows_append (entries entries' : List TrackedRecord) :
    boostRows hashing request (entries ++ entries') =
      boostRows hashing request entries ++ boostRows hashing request entries' := by
  rw [boostRows, List.filter_append, List.map_append]
  rfl

omit [DecidableEq Digest] in
theorem metadataRows_append (entries entries' : List TrackedRecord) :
    metadataRows hashing lower request (entries ++ entries') =
      metadataRows hashing lower request entries ++ metadataRows hashing lower request entries' := by
  rw [metadataRows, List.filter_append, List.map_append]
  rfl

omit [DecidableEq Digest] in
theorem mem_boostRows {row : BoostObservation Digest}
    (h : row ∈ boostRows hashing request entries) :
    ∃ entry ∈ entries, row = (feedBoost request entry).values hashing := by
  obtain ⟨entry, hentry, heq⟩ := List.mem_map.mp h
  exact ⟨entry, (List.mem_filter.mp hentry).1, heq.symm⟩

omit [DecidableEq Digest] in
theorem mem_metadataRows {row : TokenMetadataEvent Digest}
    (h : row ∈ metadataRows hashing lower request entries) :
    ∃ entry ∈ entries, row = (feedMetadataDelivery lower request entry).values hashing := by
  obtain ⟨entry, hentry, heq⟩ := List.mem_map.mp h
  exact ⟨entry, (List.mem_filter.mp hentry).1, heq.symm⟩

theorem Collected.sound (h : Collected hashing lower request entries store store')
    (hsound : Sound hashing store)
    (hentries : ∀ entry ∈ entries, Accepted entry ∧ entry.fits = true) : Sound hashing store' where
  observations row hrow := by
    rw [h.observations] at hrow
    cases mem_offer hrow with
    | inl hold => exact hsound.observations row hold
    | inr hnew =>
      obtain ⟨entry, hentry, heq⟩ := mem_boostRows hnew
      subst heq
      obtain ⟨haccepted, hfits⟩ := hentries entry hentry
      exact ⟨⟨feedBoost request entry, rfl, (feedBoost_fits haccepted.1).trans hfits⟩,
        feedBoost_ne_nan⟩
  metadata row hrow := by
    rw [h.metadata] at hrow
    cases mem_offer hrow with
    | inl hold => exact hsound.metadata row hold
    | inr hnew =>
      obtain ⟨entry, _, heq⟩ := mem_metadataRows hnew
      exact ⟨feedMetadataDelivery lower request entry, heq⟩

/-- Rows of other records have other identities. -/
theorem Collected.fresh (h : Collected hashing lower request entries store store')
    {other : TrackedRecord} {request' : FeedRequest}
    (hfresh : Fresh lower request' other store)
    (hother : request.requestId ≠ request'.requestId ∨
      ∀ entry ∈ entries, entry.position ≠ other.position) : Fresh lower request' other store' where
  observations row hrow := by
    rw [h.observations] at hrow
    cases mem_offer hrow with
    | inl hold => exact hfresh.observations row hold
    | inr hnew =>
      obtain ⟨entry, hentry, heq⟩ := mem_boostRows hnew
      subst heq
      intro hkey
      injection hkey with _ _ _ hrequest hlocator
      cases hother with
      | inl hne => exact hne hrequest
      | inr hpositions => exact hpositions entry hentry (recordLocator_injective hlocator)
  metadata row hrow := by
    rw [h.metadata] at hrow
    cases mem_offer hrow with
    | inl hold => exact hfresh.metadata row hold
    | inr hnew =>
      obtain ⟨entry, hentry, heq⟩ := mem_metadataRows hnew
      subst heq
      intro hkey
      injection hkey with _ _ _ _ hrequest hlocator
      cases hother with
      | inl hne => exact hne (Option.some.inj hrequest)
      | inr hpositions => exact hpositions entry hentry (recordLocator_injective hlocator)

theorem Collected.trans {entries' : List TrackedRecord} {store'' : FeedStore Digest}
    (h : Collected hashing lower request entries store store')
    (h' : Collected hashing lower request entries' store' store'') :
    Collected hashing lower request (entries ++ entries') store store'' where
  observations := by
    rw [h'.observations, h.observations, boostRows_append]
    exact (offer_append _ _ _).symm
  metadata := by
    rw [h'.metadata, h.metadata, metadataRows_append]
    exact (offer_append _ _ _).symm
  boosts hsame := by
    have hfirst : store.boosts.observations <+: store'.boosts.observations := by
      rw [h.observations]
      exact prefix_offer
    have hsecond : store'.boosts.observations <+: store''.boosts.observations := by
      rw [h'.observations]
      exact prefix_offer
    rw [hsame] at hsecond
    have hlength : store'.boosts.observations.length ≤ store.boosts.observations.length :=
      hsecond.length_le
    have hmid : store.boosts.observations = store'.boosts.observations :=
      hfirst.eq_of_length_le hlength
    rw [h'.boosts (hsame.trans hmid), h.boosts hmid.symm]

/-- A collection records its entries up to the first one whose amounts do not fit. -/
theorem collectRecords_collected (lower : Text → Text) (request : FeedRequest)
    (huuid : Function.Injective hashing.uuid5)
    (hdigest : Function.Injective hashing.boost) (hsound : Sound hashing store)
    (hfresh : ∀ entry ∈ entries, Fresh lower request entry store)
    (haccepted : ∀ entry ∈ entries, Accepted entry)
    (hpositions : entries.Pairwise fun a b => a.position ≠ b.position) :
    Collected hashing lower request (entries.takeWhile TrackedRecord.fits) store
      (collectRecords lower request hashing entries store) := by
  induction entries generalizing store with
  | nil => exact ⟨rfl, rfl, fun _ => rfl⟩
  | cons entry rest ih =>
    rw [List.forall_mem_cons] at hfresh haccepted
    rw [List.pairwise_cons] at hpositions
    cases hfits : entry.fits with
    | false =>
      rw [List.takeWhile_cons_of_neg (by simp [hfits]), collectRecords,
        collectRecord_refused huuid hdigest hsound hfresh.1 haccepted.1 hfits]
      exact ⟨rfl, rfl, fun _ => rfl⟩
    | true =>
      obtain ⟨store', hrecord, hcollected⟩ :=
        collectRecord_fits huuid hsound hfresh.1 haccepted.1 hfits
      have hone : ∀ e ∈ [entry], Accepted e ∧ e.fits = true := by
        intro e he
        rw [List.mem_singleton.mp he]
        exact ⟨haccepted.1, hfits⟩
      have hrest := ih (hcollected.sound hsound hone)
        (fun other hother => hcollected.fresh (hfresh.2 other hother) (.inr fun e he => by
          rw [List.mem_singleton.mp he]
          exact hpositions.1 other hother))
        haccepted.2 hpositions.2
      rw [List.takeWhile_cons_of_pos hfits, collectRecords, hrecord]
      exact hcollected.trans hrest

end Collections

/-! ### The same feed again -/

/-- What the tables hold before a collection: rows of the repositories, one for an identifier. -/
structure StoredFeed (hashing : EnrichmentHashing Digest) (store : FeedStore Digest) : Prop
    extends Sound hashing store where
  boostIds : (store.boosts.observations.map (·.id)).Nodup
  metadataIds : (store.metadata.map (·.id)).Nodup

/-- A request that no stored row came from. -/
structure NewRequest (requestId : Uuid) (store : FeedStore Digest) : Prop where
  observations : ∀ row ∈ store.boosts.observations, row.apiRequestLogId ≠ requestId
  metadata : ∀ row ∈ store.metadata,
    row.apiRequestLogId ≠ some requestId ∧ row.discoveryEventId ≠ some requestId

/-- The tracked records up to the first one whose amounts no column holds. -/
def recordedEntries (tokens : Table DiscoveredAddress.identity) (records : List BoostFeedRecord) :
    List TrackedRecord :=
  (trackedRecords tokens records).takeWhile TrackedRecord.fits

/-- For each token, the recorded entries have one boost and one metadata content. The latest stored
row has it, or the row of an entry comes later than every stored row. -/
structure FeedSettles (hashing : EnrichmentHashing Digest) (lower : Text → Text)
    (request : FeedRequest) (entries : List TrackedRecord) (store : FeedStore Digest) : Prop where
  boosts : Settles BoostObservation.scope (rowOrder BoostObservation.toEnrichmentRow)
    (fun row => row.contentSha256) store.boosts.observations (boostRows hashing request entries)
  metadata : Settles TokenMetadataEvent.scope (rowOrder TokenMetadataEvent.toEnrichmentRow)
    (fun row => row.contentSha256) store.metadata (metadataRows hashing lower request entries)

section Repoll
variable {lower : Text → Text} {request first second : FeedRequest} {store : FeedStore Digest}
  {entries : List TrackedRecord} {tokens : Table DiscoveredAddress.identity}
  {records : List BoostFeedRecord}

theorem trackedRecords_positions (tokens : Table DiscoveredAddress.identity)
    (records : List BoostFeedRecord) :
    (trackedRecords tokens records).Pairwise fun a b => a.position ≠ b.position := by
  have hzip : records.zipIdx.Pairwise fun a b => a.2 ≠ b.2 := by
    have hnodup : (records.zipIdx.map Prod.snd).Nodup := by
      rw [List.zipIdx_map_snd]
      exact List.nodup_range'
    exact List.pairwise_map.mp hnodup
  refine List.Pairwise.filterMap _ (fun a b hne x hx y hy => ?_) hzip
  obtain ⟨_, _, hx⟩ := Option.map_eq_some_iff.mp hx
  obtain ⟨_, _, hy⟩ := Option.map_eq_some_iff.mp hy
  rw [← hx, ← hy]
  exact hne

theorem trackedRecords_accepted (tokens : Table DiscoveredAddress.identity)
    (h : acceptedFeed records = true) :
    ∀ entry ∈ trackedRecords tokens records, Accepted entry := by
  rw [acceptedFeed, Bool.and_eq_true, decide_eq_true_eq, List.all_eq_true] at h
  intro entry hentry
  obtain ⟨indexed, hindexed, hmap⟩ := List.mem_filterMap.mp hentry
  obtain ⟨tokenId, _, heq⟩ := Option.map_eq_some_iff.mp hmap
  obtain ⟨_, hlt, hrecord⟩ := List.mem_zipIdx hindexed
  subst heq
  constructor
  · have hlength := h.1
    simp only [Nat.zero_add] at hlt
    exact (Nat.le_of_lt hlt).trans hlength
  · have hmem : indexed.1 ∈ records := by
      rw [hrecord]
      exact List.getElem_mem _
    exact h.2 indexed.1 hmem

omit [DecidableEq Digest] in
theorem NewRequest.fresh (h : NewRequest request.requestId store) (hsound : Sound hashing store) :
    Fresh lower request entry store where
  observations row hrow := by
    obtain ⟨⟨d, heq, _⟩, _⟩ := hsound.observations row hrow
    have hne := h.observations row hrow
    rw [heq] at hne ⊢
    intro hkey
    injection hkey with _ _ _ hrequest _
    exact hne hrequest
  metadata row hrow := by
    obtain ⟨d, heq⟩ := hsound.metadata row hrow
    have hne := h.metadata row hrow
    rw [heq] at hne ⊢
    intro hkey
    injection hkey with _ _ _ _ hevidence _
    have hrequest : d.apiRequestLogId.or d.discoveryEventId = some request.requestId := hevidence
    cases hsource : d.apiRequestLogId with
    | none =>
      rw [hsource, Option.none_or] at hrequest
      exact hne.2 hrequest
    | some requestId =>
      rw [hsource, Option.some_or] at hrequest
      exact hne.1 (hsource.trans hrequest)

omit [DecidableEq Digest] in
/-- The rows that a collection offers have an identifier each, which no stored row has. -/
theorem StoredFeed.nodup_boosts (lower : Text → Text) (h : StoredFeed hashing store)
    (huuid : Function.Injective hashing.uuid5)
    (hfresh : ∀ entry ∈ entries, Fresh lower request entry store)
    (hpositions : entries.Pairwise fun a b => a.position ≠ b.position) :
    ((store.boosts.observations ++ boostRows hashing request entries).map
      (rowOrder BoostObservation.toEnrichmentRow)).Nodup := by
  refine List.Nodup.of_map (fun order => (ofLex order).2) ?_
  rw [List.map_map, List.map_append, List.nodup_append]
  refine ⟨h.boostIds, ?_, ?_⟩
  · rw [boostRows, List.map_map, List.Nodup, List.pairwise_map]
    refine (hpositions.sublist List.filter_sublist).imp fun hne hid => hne ?_
    have hkey := huuid hid
    injection hkey with _ _ _ _ hlocator
    exact recordLocator_injective hlocator
  · intro id hold other hnew heq
    obtain ⟨row, hrow, hid⟩ := List.mem_map.mp hold
    obtain ⟨offered, hoffered, hotherId⟩ := List.mem_map.mp hnew
    obtain ⟨entry, hentry, hvalues⟩ := mem_boostRows hoffered
    obtain ⟨⟨d, hd, _⟩, _⟩ := h.observations row hrow
    have hne := (hfresh entry hentry).observations row hrow
    rw [hd] at hid hne
    rw [hvalues] at hotherId
    exact hne (huuid (hid.trans (heq.trans hotherId.symm)))

omit [DecidableEq Digest] in
theorem StoredFeed.nodup_metadata (h : StoredFeed hashing store)
    (huuid : Function.Injective hashing.uuid5)
    (hfresh : ∀ entry ∈ entries, Fresh lower request entry store)
    (hpositions : entries.Pairwise fun a b => a.position ≠ b.position) :
    ((store.metadata ++ metadataRows hashing lower request entries).map
      (rowOrder TokenMetadataEvent.toEnrichmentRow)).Nodup := by
  refine List.Nodup.of_map (fun order => (ofLex order).2) ?_
  rw [List.map_map, List.map_append, List.nodup_append]
  refine ⟨h.metadataIds, ?_, ?_⟩
  · rw [metadataRows, List.map_map, List.Nodup, List.pairwise_map]
    refine (hpositions.sublist List.filter_sublist).imp fun hne hid => hne ?_
    have hkey := huuid hid
    injection hkey with _ _ _ _ _ hlocator
    exact recordLocator_injective hlocator
  · intro id hold other hnew heq
    obtain ⟨row, hrow, hid⟩ := List.mem_map.mp hold
    obtain ⟨offered, hoffered, hotherId⟩ := List.mem_map.mp hnew
    obtain ⟨entry, hentry, hvalues⟩ := mem_metadataRows hoffered
    obtain ⟨d, hd⟩ := h.metadata row hrow
    have hne := (hfresh entry hentry).metadata row hrow
    rw [hd] at hid hne
    rw [hvalues] at hotherId
    exact hne (huuid (hid.trans (heq.trans hotherId.symm)))

omit [DecidableEq Digest] in
theorem boostRows_again (hashing : EnrichmentHashing Digest) (hkind : second.kind = first.kind)
    (entries : List TrackedRecord) :
    List.Forall₂ (fun a b => a.scope = b.scope ∧ a.contentSha256 = b.contentSha256)
      (boostRows hashing first entries) (boostRows hashing second entries) := by
  rw [boostRows, boostRows, List.forall₂_map_left_iff, List.forall₂_map_right_iff,
    List.forall₂_same]
  intro entry _
  have hsource : (feedBoost first entry).sourceKind = (feedBoost second entry).sourceKind :=
    congrArg FeedKind.source hkind.symm
  refine ⟨?_, rfl⟩
  simp only [BoostObservation.scope, BoostDelivery.values, hsource]
  rfl

omit [DecidableEq Digest] in
theorem metadataRows_again (hashing : EnrichmentHashing Digest) (lower : Text → Text)
    (first second : FeedRequest) (entries : List TrackedRecord) :
    List.Forall₂ (fun a b => a.scope = b.scope ∧ a.contentSha256 = b.contentSha256)
      (metadataRows hashing lower first entries) (metadataRows hashing lower second entries) := by
  rw [metadataRows, metadataRows, List.forall₂_map_left_iff, List.forall₂_map_right_iff,
    List.forall₂_same]
  exact fun _ _ => ⟨rfl, rfl⟩

/-- A second collection of the same feed leaves the tables as they are exactly when the first one
settled them. -/
theorem repolled_feed_silent_iff (hashing : EnrichmentHashing Digest) (lower : Text → Text)
    (tokens : Table DiscoveredAddress.identity) (records : List BoostFeedRecord)
    (first second : FeedRequest) (store : FeedStore Digest)
    (haccepted : acceptedFeed records = true) (hkind : second.kind = first.kind)
    (hrequests : first.requestId ≠ second.requestId) (hstored : StoredFeed hashing store)
    (hfirst : NewRequest first.requestId store) (hsecond : NewRequest second.requestId store)
    (huuid : Function.Injective hashing.uuid5) (hdigest : Function.Injective hashing.boost) :
    collectFeed lower second hashing tokens records
        (collectFeed lower first hashing tokens records store) =
      collectFeed lower first hashing tokens records store ↔
    FeedSettles hashing lower first (recordedEntries tokens records) store := by
  have hentries := trackedRecords_accepted tokens haccepted
  have hpositions := trackedRecords_positions tokens records
  have hrecordedPart : (recordedEntries tokens records).Sublist (trackedRecords tokens records) :=
    List.takeWhile_sublist _
  have hrecorded : ∀ entry ∈ recordedEntries tokens records,
      Accepted entry ∧ entry.fits = true := fun entry hentry =>
    ⟨hentries entry (hrecordedPart.subset hentry), List.mem_takeWhile_imp hentry⟩
  have hfresh : ∀ entry : TrackedRecord, Fresh lower first entry store :=
    fun _ => hfirst.fresh hstored.toSound
  rw [collectFeed, collectFeed, if_pos haccepted, if_pos haccepted]
  have hone := collectRecords_collected lower first huuid hdigest hstored.toSound
    (fun entry _ => hfresh entry) hentries hpositions
  have htwo := collectRecords_collected lower second huuid hdigest
    (hone.sound hstored.toSound hrecorded)
    (fun _ _ => hone.fresh (hsecond.fresh hstored.toSound) (.inl hrequests)) hentries hpositions
  have hboosts := offer_again_iff
    (hstored.nodup_boosts lower huuid (fun entry _ => hfresh entry) (hpositions.sublist hrecordedPart))
    (boostRows_again hashing hkind (recordedEntries tokens records))
  have hmetadata := offer_again_iff
    (hstored.nodup_metadata huuid (fun entry _ => hfresh entry) (hpositions.sublist hrecordedPart))
    (metadataRows_again hashing lower first second (recordedEntries tokens records))
  constructor
  · intro hsame
    have hobservations := htwo.observations
    have hrows := htwo.metadata
    rw [hsame, hone.observations] at hobservations
    rw [hsame, hone.metadata] at hrows
    exact ⟨hboosts.mp hobservations.symm, hmetadata.mp hrows.symm⟩
  · intro hsettles
    have hobservations := htwo.observations
    have hrows := htwo.metadata
    rw [hone.observations] at hobservations
    rw [hone.metadata] at hrows
    have hsame := hobservations.trans
      ((hboosts.mpr hsettles.boosts).trans hone.observations.symm)
    have hsameRows := hrows.trans ((hmetadata.mpr hsettles.metadata).trans hone.metadata.symm)
    exact congrArg₂ FeedStore.mk (htwo.boosts hsame) hsameRows

end Repoll

end Repositories

/-! ### A feed of one token -/

deriving instance Encodable for MetadataSource, BoostSource, EnrichmentKey

/-- Digests that are the contents of boosts, and identifiers that number the keys. -/
def feedDigests : EnrichmentHashing BoostCreate where
  pairFact _ := ⟨none, none, none⟩
  metadata _ := ⟨none, none, none⟩
  boost content := content
  uuid5 := Encodable.encode

def emptyFeed : FeedStore BoostCreate := ⟨⟨[], []⟩, []⟩

def boostedTokens : Table DiscoveredAddress.identity :=
  Table.empty.insertNew ⟨1, text "solana", text "A", none⟩

/-- A record of the token with one boost or two. -/
def boostRecord (amount : Nat) : BoostFeedRecord where
  chainId := some (text "solana")
  tokenAddress := some (text "A")
  amount := some (.finite false amount 0)
  totalAmount := none
  icon := none
  header := none
  links := none
  recordSha256 :=
    if amount = 1 then
      hexDigest "371d9b349abc464297d4e2ac9021238539dabde558bc81d9035e6db84648493f"
        (by decide +kernel) (by decide +kernel)
    else
      hexDigest "5384e34b2e5443c554bde32fe1eb31c02a37f4fe292b3e65a77a61fbbefb3367"
        (by decide +kernel) (by decide +kernel)
  amount_finite := rfl
  totalAmount_finite := rfl

def feedRequest (i : Nat) : FeedRequest := ⟨.latest, 0, i, i⟩

/-- The second response with two records of one amount is silent. -/
theorem repolled_feed_silent_twice :
    collectFeed id (feedRequest 2) feedDigests boostedTokens [boostRecord 1, boostRecord 1]
        (collectFeed id (feedRequest 1) feedDigests boostedTokens [boostRecord 1, boostRecord 1]
          emptyFeed) =
      collectFeed id (feedRequest 1) feedDigests boostedTokens [boostRecord 1, boostRecord 1]
        emptyFeed := by
  have hempty : StoredFeed feedDigests emptyFeed :=
    { observations := fun _ h => absurd h List.not_mem_nil
      metadata := fun _ h => absurd h List.not_mem_nil
      boostIds := List.nodup_nil
      metadataIds := List.nodup_nil }
  have hnew (i : Uuid) : NewRequest i emptyFeed :=
    ⟨fun _ h => absurd h List.not_mem_nil, fun _ h => absurd h List.not_mem_nil⟩
  have hiff := repolled_feed_silent_iff feedDigests id boostedTokens [boostRecord 1, boostRecord 1]
    (feedRequest 1) (feedRequest 2) emptyFeed (by decide) rfl (by decide) hempty (hnew 1) (hnew 2)
    Encodable.encode_injective Function.injective_id
  refine hiff.mpr ?_
  have hrecord : ∀ entry ∈ recordedEntries boostedTokens [boostRecord 1, boostRecord 1],
      entry.record = boostRecord 1 := by
    intro entry hentry
    obtain ⟨indexed, hindexed, hmap⟩ := List.mem_filterMap.mp
      ((List.takeWhile_sublist _).subset hentry)
    obtain ⟨tokenId, _, heq⟩ := Option.map_eq_some_iff.mp hmap
    have hmem : indexed.1 ∈ [boostRecord 1, boostRecord 1] := by
      obtain ⟨_, _, hget⟩ := List.mem_zipIdx hindexed
      rw [hget]
      exact List.getElem_mem _
    rw [← heq]
    simpa using hmem
  constructor
  · intro row hrow
    obtain ⟨entry, hentry, heq⟩ := mem_boostRows hrow
    refine ⟨fun row' hrow' _ => ?_, .inr ⟨row, hrow, rfl, fun _ h => absurd h List.not_mem_nil⟩⟩
    obtain ⟨entry', hentry', heq'⟩ := mem_boostRows hrow'
    have hfact : entry'.fact = entry.fact := by
      rw [TrackedRecord.fact, TrackedRecord.fact, hrecord entry hentry, hrecord entry' hentry']
    rw [heq, heq']
    exact hfact
  · intro row hrow
    obtain ⟨entry, hentry, _⟩ := List.mem_map.mp hrow
    have hpresent := (List.mem_filter.mp hentry).2
    rw [hrecord entry (List.mem_filter.mp hentry).1] at hpresent
    cases hpresent

/-- Two records of one token alternate, so every collection appends both. -/
theorem repolled_feed_appends :
    collectFeed id (feedRequest 2) feedDigests boostedTokens [boostRecord 1, boostRecord 2]
        (collectFeed id (feedRequest 1) feedDigests boostedTokens [boostRecord 1, boostRecord 2]
          emptyFeed) ≠
      collectFeed id (feedRequest 1) feedDigests boostedTokens [boostRecord 1, boostRecord 2]
        emptyFeed := by
  intro h
  have hlength := congrArg (fun store => store.boosts.observations.length) h
  revert hlength
  decide +kernel

end PumpResearch.Collection
