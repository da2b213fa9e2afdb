import PoolLedger.Proofs.Readable
import PoolLedger.Proofs.Sync.ExactlyOnce
import PoolLedger.Proofs.Sync.Validated

/-!
# Rows that can be read

Validation sums up the amounts of all rows, so that one row whose amounts cannot be read makes it
fail for good. Each row has an origin in a transaction that the source told (`Reached.stems`), and
whether it can be read depends on the amounts that are kept as this origin has them.
`readable_exactly` puts the two together. The amounts of a transfer into a pool are such, so there
are rows that cannot be read (`transfer_spoils_pool`).
-/

namespace PoolLedger

variable {σ : Type}

namespace Follower

variable {f : Follower σ} {s : Store} {journal : List Moment}

/-- **Every row has an origin in a transaction that the source told for its height.** -/
theorem Reached.stems (h : f.Reached s journal) {row : RecordRow} (hrow : row ∈ s.records) :
    ∃ txs store tx registry o r,
      { deed := .fetched row.height txs, store } ∈ journal ∧ tx ∈ txs ∧
        f.profile.Yields row.height registry tx o r ∧ row = .ofRecord f.chain row.height r := by
  rcases h.synced with ⟨hempty, -⟩ | ⟨height, hsynced⟩
  · rw [hempty] at hrow
    cases hrow
  obtain ⟨-, hlow, hhigh⟩ := hsynced.records row hrow
  obtain ⟨early, listing, late, before, after, txs, records, hjournal, -, -, hall, hrows⟩ :=
    hsynced.blocks row.height hlow hhigh
  have hmem : row ∈ records.map (.ofRecord f.chain row.height) := by
    rw [← hrows]
    exact List.mem_filter.2 ⟨hrow, decide_eq_true rfl⟩
  obtain ⟨r, hr, hofRecord⟩ := List.mem_map.1 hmem
  obtain ⟨tx, htx, registry, o, hyields⟩ :=
    Profile.yields_of_extractAll (Prod.ext (hall []) rfl) hr
  refine ⟨txs, before, tx, registry, o, r, ?_, htx, hyields, hofRecord.symm⟩
  rw [hjournal]
  exact List.mem_append_right _ List.mem_cons_self

/-- **What can be read, and when the pools of a store can be told.** Whether the amounts of a record
can be read is decided by those that it keeps as its origin has them. This goes for all records that
are extracted from a transaction, and for all rows that runs lead to. The pools that these imply can
be told exactly when every row can be read and no sum is too long. -/
theorem readable_exactly (f : Follower σ) (source : σ) (turns : List (Turn σ)) :
    (∀ height tx known known' records,
      f.profile.extract height tx known = (.ok records, known') → ∀ r ∈ records,
        ∃ o, f.profile.Yields height known'.registry tx o r ∧
          (r.IsReadable ↔ ∀ text ∈ o.copied f.profile height, Amount.IsReadable text)) ∧
      (∀ row ∈ (f.worldAfter source turns).store.records, ∃ txs store tx registry o r,
        { deed := .fetched row.height txs, store } ∈ (f.history source turns).journal ∧ tx ∈ txs ∧
          f.profile.Yields row.height registry tx o r ∧ row = .ofRecord f.chain row.height r ∧
          (row.IsReadable ↔ ∀ text ∈ o.copied f.profile row.height, Amount.IsReadable text)) ∧
      ∀ first last,
        (∃ pools, (f.worldAfter source turns).store.impliedPools f.chain first last = .ok pools) ↔
          (Store.fits first ∧ Store.fits last) ∧
            (∀ row ∈ (f.worldAfter source turns).store.recordsIn f.chain first last,
              row.IsReadable) ∧
            ∀ flows, (f.worldAfter source turns).store.flows f.chain first last = .ok flows →
              ∀ flow ∈ flows, flow.IsWritable := by
  refine ⟨?_, ?_,
    fun first last => Store.exists_impliedPools_iff⟩
  · intro height tx known known' records hextract r hr
    obtain ⟨o, hyields⟩ := Profile.yields_of_extract hextract hr
    exact ⟨o, hyields, hyields.isReadable_iff⟩
  · intro row hrow
    rw [← f.world_history] at hrow
    obtain ⟨txs, store, tx, registry, o, r, hfetched, htx, hyields, hofRecord⟩ :=
      (f.reached_history source turns).stems hrow
    refine ⟨txs, store, tx, registry, o, r, hfetched, htx, hyields, hofRecord, ?_⟩
    rw [hofRecord, isReadable_ofRecord]
    exact hyields.isReadable_iff

end Follower

/-- A transaction in which a pair is created and gets tokens in an amount that is none. -/
def spoilingTx : RawTx where
  hash := "A1"
  sender := "terra1user"
  entries := [{
    kind := "wasm"
    attributes := [⟨"_contract_address", "terra1factory"⟩, ⟨"action", "create_pair"⟩,
      ⟨"pair", "uluna-terra1token"⟩, ⟨"_contract_address", "terra1pair"⟩,
      ⟨"liquidity_token_addr", "terra1share"⟩, ⟨"_contract_address", "terra1token"⟩,
      ⟨"action", "transfer"⟩, ⟨"from", "terra1user"⟩, ⟨"to", "terra1pair"⟩, ⟨"amount", "1e3"⟩] }]

def spoilingSource : ScriptedSource where
  height := 1
  blocks := [("1", some [spoilingTx])]
  pools := [("1", [createdPool])]

/-- The transfer is extracted and its block is written, and from then on the pools cannot be
told. -/
theorem transfer_spoils_pool :
    (∃ records, (carefulFollower.profile.extract 1 spoilingTx {}).1 = .ok records ∧
      ∃ r ∈ records, ¬r.IsReadable) ∧
      carefulFollower.At 1 (carefulFollower.worldAfter {} [{ source := spoilingSource }]).store ∧
      (carefulFollower.worldAfter {} [{ source := spoilingSource }]).store.impliedPools
        carefulFollower.chain 0 1 = .error (.amount (.malformedAmount "1e3")) := by
  refine ⟨⟨(carefulFollower.profile.extract 1 spoilingTx {}).1.toOption.getD [], ?_, ?_⟩, ?_, ?_⟩
  · decide +kernel
  · decide +kernel
  · unfold Follower.At
    decide +kernel
  · decide +kernel

end PoolLedger
