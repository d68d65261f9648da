import IpciBlockchain.Foundation.Allocation
import IpciBlockchain.Foundation.StorageMap
import IpciBlockchain.Runtime.Constants
import Mathlib.Algebra.Group.Action.Defs

namespace IpciBlockchain
namespace Cli

open Foundation
open IpciBlockchain.Runtime (Balance Perbill mito)

/-!
# The genesis of a test network

`testnet_genesis` endows a list of accounts, and gives every authority's stash
the stake that it bonds.  The balances list is one list after the other.  If a
stash is also endowed, it is listed twice: the amounts of both entries are
counted as issued, but the account has only one balance.

Keys are derived from secret texts by Substrate; the functions that do so are
fields of `KeyDerivation`.
-/

/-- The keys of an authority that a session uses. -/
structure SessionKeys (Grandpa Babe ImOnline AuthorityDiscovery : Type) where
  grandpa : Grandpa
  babe : Babe
  imOnline : ImOnline
  authorityDiscovery : AuthorityDiscovery
  deriving DecidableEq, Repr

inductive StakerStatus (AccountId : Type) where
  | idle
  | validator
  | nominator (targets : List AccountId)
  deriving DecidableEq, Repr

/-- The fields of the staking configuration that the genesis sets; the others
have their defaults. -/
structure StakingConfig (AccountId : Type) where
  validatorCount : UInt32
  minimumValidatorCount : UInt32
  stakers : List (AccountId × AccountId × Balance × StakerStatus AccountId)
  invulnerables : List AccountId
  slashRewardFraction : Perbill
  deriving DecidableEq, Repr

/-- The configurations of the pallets at genesis. -/
structure GenesisConfig (AccountId Grandpa Babe ImOnline AuthorityDiscovery : Type) where
  systemCode : List UInt8
  indices : List (UInt32 × AccountId)
  balances : List (AccountId × Balance)
  babeAuthorities : List (Babe × UInt64)
  grandpaAuthorities : List (Grandpa × UInt64)
  sessionKeys :
    List (AccountId × AccountId × SessionKeys Grandpa Babe ImOnline AuthorityDiscovery)
  staking : StakingConfig AccountId
  sudoKey : AccountId
  imOnlineKeys : List ImOnline
  authorityDiscoveryKeys : List AuthorityDiscovery
  deriving DecidableEq, Repr

/-- The keys of a secret text, by type of key, and the account of an `sr25519`
key. -/
structure KeyDerivation (AccountId Grandpa Babe ImOnline AuthorityDiscovery : Type) where
  account : String → AccountId
  grandpa : String → Grandpa
  babe : String → Babe
  imOnline : String → ImOnline
  authorityDiscovery : String → AuthorityDiscovery

/-- Stash, controller and session keys of an initial authority. -/
abbrev Authority (AccountId Grandpa Babe ImOnline AuthorityDiscovery : Type) :=
  AccountId × AccountId × Grandpa × Babe × ImOnline × AuthorityDiscovery

variable {AccountId Grandpa Babe ImOnline AuthorityDiscovery : Type}

/-- The text that `get_from_seed` derives a key from. -/
def seedText (seed : String) : String :=
  "//" ++ seed

/-- Helper function to generate an account ID from seed. -/
def getAccountIdFromSeed
    (keys : KeyDerivation AccountId Grandpa Babe ImOnline AuthorityDiscovery) (seed : String) :
    AccountId :=
  keys.account (seedText seed)

/-- Helper function to generate stash, controller and session key from seed. -/
def authorityKeysFromSeed
    (keys : KeyDerivation AccountId Grandpa Babe ImOnline AuthorityDiscovery) (seed : String) :
    Authority AccountId Grandpa Babe ImOnline AuthorityDiscovery :=
  (getAccountIdFromSeed keys (seed ++ "//stash"), getAccountIdFromSeed keys seed,
    keys.grandpa (seedText seed), keys.babe (seedText seed), keys.imOnline (seedText seed),
    keys.authorityDiscovery (seedText seed))

/-- The seeds of the accounts that are endowed if no list is given. -/
def endowedSeeds : List String :=
  ["Alice", "Bob", "Charlie", "Dave", "Eve", "Ferdie", "Alice//stash", "Bob//stash",
    "Charlie//stash", "Dave//stash", "Eve//stash", "Ferdie//stash"]

/-- The endowed accounts, or else those of the built-in seeds. -/
def endowedOrDefault
    (keys : KeyDerivation AccountId Grandpa Babe ImOnline AuthorityDiscovery)
    (endowedAccounts : Option (List AccountId)) : List AccountId :=
  endowedAccounts.getD (endowedSeeds.map (getAccountIdFromSeed keys))

def endowment : Balance := 10000000 * mito

def stake : Balance := 500000 * mito

theorem endowment_pos : 0 < endowment.toNat := by
  decide

theorem stake_pos : 0 < stake.toNat := by
  decide

theorem stake_le_endowment : stake ≤ endowment := by
  decide

/-- Helper function to create GenesisConfig for testing.  The runtime's code is
an argument here, and the last argument is not used. -/
def testnetGenesis (keys : KeyDerivation AccountId Grandpa Babe ImOnline AuthorityDiscovery)
    (wasmBinary : List UInt8)
    (initialAuthorities : List (Authority AccountId Grandpa Babe ImOnline AuthorityDiscovery))
    (rootKey : AccountId) (endowedAccounts : Option (List AccountId)) (_enablePrintln : Bool) :
    GenesisConfig AccountId Grandpa Babe ImOnline AuthorityDiscovery where
  systemCode := wasmBinary
  indices := []
  balances := (endowedOrDefault keys endowedAccounts).map (fun k => (k, endowment)) ++
    initialAuthorities.map fun x => (x.1, stake)
  babeAuthorities := []
  grandpaAuthorities := []
  sessionKeys := initialAuthorities.map fun (stash, _, grandpa, babe, imOnline, discovery) =>
    (stash, stash,
      { grandpa := grandpa, babe := babe, imOnline := imOnline, authorityDiscovery := discovery })
  staking :=
    { validatorCount := UInt32.ofNat initialAuthorities.length * 2
      minimumValidatorCount := UInt32.ofNat initialAuthorities.length
      stakers := initialAuthorities.map fun x => (x.1, x.2.1, stake, .validator)
      invulnerables := initialAuthorities.map fun x => x.1
      slashRewardFraction := Perbill.fromPercent 10 }
  sudoKey := rootKey
  imOnlineKeys := []
  authorityDiscoveryKeys := []

def developmentConfigGenesis
    (keys : KeyDerivation AccountId Grandpa Babe ImOnline AuthorityDiscovery)
    (wasmBinary : List UInt8) :
    GenesisConfig AccountId Grandpa Babe ImOnline AuthorityDiscovery :=
  testnetGenesis keys wasmBinary [authorityKeysFromSeed keys "Alice"]
    (getAccountIdFromSeed keys "Alice") none true

/-! ## Conservation of the issuance -/

/-- How `pallet_balances` turns the balances list into balances: every listed
account is set to an amount that is listed for it. -/
structure BalancesGenesis (AccountId : Type) where
  build : List (AccountId × Balance) → AccountId → Balance
  build_listed : ∀ balances account, account ∈ balances.map Prod.fst →
    (account, build balances account) ∈ balances

/-- The balances list as amounts by name. -/
def entries (balances : List (AccountId × Balance)) : List (AccountId × ℕ) :=
  balances.map fun entry => (entry.1, entry.2.toNat)

/-- The genesis lists each account at most once, what is recorded as total
issuance is what the accounts have, and every stash has what it bonds. -/
structure ConservesIssuance [DecidableEq AccountId] (free : AccountId → Balance)
    (config : GenesisConfig AccountId Grandpa Babe ImOnline AuthorityDiscovery) : Prop where
  names_nodup : (config.balances.map Prod.fst).Nodup
  issuance_eq : (config.balances.map fun entry => entry.2.toNat).sum =
    ((config.balances.map Prod.fst).dedup.map fun account => (free account).toNat).sum
  stakes_covered : ∀ stash controller bonded status,
    (stash, controller, bonded, status) ∈ config.staking.stakers → bonded ≤ free stash

section Builder

variable (keys : KeyDerivation AccountId Grandpa Babe ImOnline AuthorityDiscovery)
  (wasmBinary : List UInt8)
  (initialAuthorities : List (Authority AccountId Grandpa Babe ImOnline AuthorityDiscovery))
  (rootKey : AccountId) (endowedAccounts : Option (List AccountId)) (enablePrintln : Bool)

/-- The listed names are the endowed accounts and then the stashes. -/
theorem testnetGenesis_names :
    (testnetGenesis keys wasmBinary initialAuthorities rootKey endowedAccounts
      enablePrintln).balances.map Prod.fst =
      endowedOrDefault keys endowedAccounts ++ initialAuthorities.map Prod.fst := by
  have firsts : (endowedOrDefault keys endowedAccounts).map
      (Prod.fst ∘ fun k => (k, endowment)) = endowedOrDefault keys endowedAccounts := List.map_id _
  simp only [testnetGenesis, List.map_append, List.map_map, firsts]
  rfl

/-- Every listed amount is an endowment or a stake. -/
theorem testnetGenesis_amount {entry : AccountId × Balance}
    (member : entry ∈ (testnetGenesis keys wasmBinary initialAuthorities rootKey endowedAccounts
      enablePrintln).balances) : entry.2 = endowment ∨ entry.2 = stake := by
  rcases List.mem_append.mp member with endowed | staked
  · rcases List.mem_map.mp endowed with ⟨account, _, rfl⟩
    exact Or.inl rfl
  · rcases List.mem_map.mp staked with ⟨authority, _, rfl⟩
    exact Or.inr rfl

/-- Every stash has what it bonds, whichever of its entries counts. -/
theorem testnetGenesis_stakes_covered (pallet : BalancesGenesis AccountId)
    {stash controller : AccountId} {bonded : Balance} {status : StakerStatus AccountId}
    (member : (stash, controller, bonded, status) ∈ (testnetGenesis keys wasmBinary
      initialAuthorities rootKey endowedAccounts enablePrintln).staking.stakers) :
    bonded ≤ pallet.build (testnetGenesis keys wasmBinary initialAuthorities rootKey
      endowedAccounts enablePrintln).balances stash := by
  rcases List.mem_map.mp member with ⟨authority, listed, same⟩
  cases same
  have named : authority.1 ∈ (testnetGenesis keys wasmBinary initialAuthorities rootKey
      endowedAccounts enablePrintln).balances.map Prod.fst := by
    rw [testnetGenesis_names]
    exact List.mem_append_right _ (List.mem_map_of_mem listed)
  rcases testnetGenesis_amount keys wasmBinary initialAuthorities rootKey endowedAccounts
    enablePrintln (pallet.build_listed _ _ named) with endowed | staked
  · exact stake_le_endowment.trans_eq endowed.symm
  · exact staked ▸ BitVec.le_refl stake

variable [DecidableEq AccountId]

/-- The issuance is conserved exactly if no account is listed twice. -/
theorem issuance_eq_iff_nodup (pallet : BalancesGenesis AccountId) :
    let config := testnetGenesis keys wasmBinary initialAuthorities rootKey endowedAccounts
      enablePrintln
    (config.balances.map fun entry => entry.2.toNat).sum =
        ((config.balances.map Prod.fst).dedup.map fun account =>
          (pallet.build config.balances account).toNat).sum ↔
      (config.balances.map Prod.fst).Nodup := by
  intro config
  have names : Allocation.names (entries config.balances) = config.balances.map Prod.fst := by
    simp only [Allocation.names, entries, List.map_map]
    rfl
  have keeps : Allocation.Keeps (entries config.balances)
      fun account => (pallet.build config.balances account).toNat := by
    intro account named
    rw [names] at named
    exact List.mem_map.mpr ⟨_, pallet.build_listed _ _ named, rfl⟩
  have positive : ∀ entry ∈ entries config.balances, 0 < entry.2 := by
    intro entry member
    rcases List.mem_map.mp member with ⟨listed, inside, rfl⟩
    change 0 < listed.2.toNat
    rcases testnetGenesis_amount keys wasmBinary initialAuthorities rootKey endowedAccounts
      enablePrintln inside with endowed | staked
    · rw [endowed]
      exact endowment_pos
    · rw [staked]
      exact stake_pos
  have conserved := Allocation.listed_eq_total_iff keeps positive
  rw [Allocation.total, Allocation.listed, names, entries, List.map_map] at conserved
  exact conserved

omit [DecidableEq AccountId] in
/-- If neither list repeats an account, the balances list does so exactly if a
stash is endowed. -/
theorem testnetGenesis_names_nodup_iff
    (stashesDistinct : (initialAuthorities.map Prod.fst).Nodup)
    (endowedDistinct : (endowedOrDefault keys endowedAccounts).Nodup) :
    ((testnetGenesis keys wasmBinary initialAuthorities rootKey endowedAccounts
      enablePrintln).balances.map Prod.fst).Nodup ↔
      ∀ authority ∈ initialAuthorities, authority.1 ∉ endowedOrDefault keys endowedAccounts := by
  rw [testnetGenesis_names, List.nodup_append']
  constructor
  · rintro ⟨_, _, disjoint⟩ authority listed endowed
    exact disjoint endowed (List.mem_map_of_mem listed)
  · intro apart
    refine ⟨endowedDistinct, stashesDistinct, ?_⟩
    intro account endowed staked
    rcases List.mem_map.mp staked with ⟨authority, listed, rfl⟩
    exact apart authority listed endowed

/-- The genesis conserves the issuance if and only if no initial authority's
stash is among the endowed accounts. -/
theorem conservesIssuance_iff (pallet : BalancesGenesis AccountId)
    (stashesDistinct : (initialAuthorities.map Prod.fst).Nodup)
    (endowedDistinct : ∀ accounts, endowedAccounts = some accounts → accounts.Nodup)
    (derivedDistinct : (endowedSeeds.map (getAccountIdFromSeed keys)).Nodup) :
    let config := testnetGenesis keys wasmBinary initialAuthorities rootKey endowedAccounts
      enablePrintln
    ConservesIssuance (pallet.build config.balances) config ↔
      ∀ authority ∈ initialAuthorities, authority.1 ∉ endowedOrDefault keys endowedAccounts := by
  intro config
  have distinct : (endowedOrDefault keys endowedAccounts).Nodup := by
    cases endowedAccounts with
    | none => exact derivedDistinct
    | some accounts => exact endowedDistinct accounts rfl
  rw [← testnetGenesis_names_nodup_iff keys wasmBinary initialAuthorities rootKey endowedAccounts
    enablePrintln stashesDistinct distinct]
  constructor
  · intro conserves
    exact conserves.names_nodup
  · intro nodup
    refine ⟨nodup, ?_, ?_⟩
    · exact (issuance_eq_iff_nodup keys wasmBinary initialAuthorities rootKey endowedAccounts
        enablePrintln pallet).mpr nodup
    · intro stash controller bonded status member
      exact testnetGenesis_stakes_covered keys wasmBinary initialAuthorities rootKey
        endowedAccounts enablePrintln pallet member

end Builder

/-! ## The development network -/

/-- The development genesis lists the stash of Alice twice: it is one of the
built-in accounts, and it bonds. -/
theorem developmentConfigGenesis_duplicates
    (keys : KeyDerivation AccountId Grandpa Babe ImOnline AuthorityDiscovery)
    (wasmBinary : List UInt8) :
    ¬ ((developmentConfigGenesis keys wasmBinary).balances.map Prod.fst).Nodup := by
  intro nodup
  unfold developmentConfigGenesis at nodup
  rw [testnetGenesis_names, List.nodup_append'] at nodup
  have builtIn : "Alice" ++ "//stash" ∈ endowedSeeds := by decide
  exact nodup.2.2 (List.mem_map_of_mem builtIn) List.mem_cons_self

/-- `pallet_balances` inserts the listed balances one after the other. -/
def insertBalances [DecidableEq AccountId] (balances : List (AccountId × Balance)) :
    StorageMap AccountId Balance :=
  balances.foldl (fun map entry => map.insert entry.1 entry.2) StorageMap.empty

theorem insertBalances_listed [DecidableEq AccountId] {balances : List (AccountId × Balance)}
    {account : AccountId} (named : account ∈ balances.map Prod.fst) :
    (account, (insertBalances balances).get account) ∈ balances := by
  induction balances using List.reverseRecOn with
  | nil => cases named
  | append_singleton earlier last ih =>
      have step : insertBalances (earlier ++ [last]) =
          (insertBalances earlier).insert last.1 last.2 := by
        unfold insertBalances
        rw [List.foldl_append]
        rfl
      rw [step]
      by_cases same : account = last.1
      · rw [same, StorageMap.get, StorageMap.insert_self]
        exact List.mem_append_right earlier List.mem_cons_self
      · have before : account ∈ earlier.map Prod.fst := by
          rw [List.map_append] at named
          rcases List.mem_append.mp named with before | added
          · exact before
          · exact absurd (List.mem_singleton.mp added) same
        rw [StorageMap.get, StorageMap.insert_of_ne _ _ same]
        exact List.mem_append_left [last] (ih before)

def storedBalances (AccountId : Type) [DecidableEq AccountId] : BalancesGenesis AccountId where
  build balances account := (insertBalances balances).get account
  build_listed _ _ named := insertBalances_listed named

/-- Keys that are the secret texts themselves. -/
def plainKeys : KeyDerivation String String String String String where
  account := id
  grandpa := id
  babe := id
  imOnline := id
  authorityDiscovery := id

/-- The development genesis does not conserve the issuance. -/
theorem developmentConfigGenesis_not_conserved :
    ¬ ConservesIssuance
      ((storedBalances String).build (developmentConfigGenesis plainKeys []).balances)
      (developmentConfigGenesis plainKeys []) := by
  intro conserves
  exact developmentConfigGenesis_duplicates plainKeys [] conserves.names_nodup

theorem conservesIssuance_iff_bob :
    let config := testnetGenesis plainKeys [] [authorityKeysFromSeed plainKeys "Alice"] "//Alice"
      (some ["//Bob"]) true
    ConservesIssuance ((storedBalances String).build config.balances) config ↔
      ∀ authority ∈ [authorityKeysFromSeed plainKeys "Alice"],
        authority.1 ∉ endowedOrDefault plainKeys (some ["//Bob"]) :=
  conservesIssuance_iff plainKeys [] [authorityKeysFromSeed plainKeys "Alice"] "//Alice"
    (some ["//Bob"]) true (storedBalances String) (List.nodup_singleton _)
    (by rintro accounts ⟨⟩; exact List.nodup_singleton _) (by decide +kernel)

/-! ## How much is not conserved -/

/-- The listed balances are inserted one after the other. -/
structure InsertsInOrder (build : List (AccountId × Balance) → AccountId → Balance) : Prop where
  last : ∀ earlier account amount, build (earlier ++ [(account, amount)]) account = amount
  other : ∀ earlier account amount account', account' ≠ account →
    build (earlier ++ [(account, amount)]) account' = build earlier account'

theorem insertsInOrder_insertBalances [DecidableEq AccountId] :
    InsertsInOrder fun (balances : List (AccountId × Balance)) account =>
      (insertBalances balances).get account where
  last earlier account amount := by
    simp only [insertBalances, List.foldl_append, List.foldl_cons, List.foldl_nil, StorageMap.get,
      StorageMap.insert_self, Option.getD_some]
  other earlier account amount account' different := by
    simp only [insertBalances, List.foldl_append, List.foldl_cons, List.foldl_nil, StorageMap.get,
      StorageMap.insert_of_ne _ _ different]

section Excess

variable [DecidableEq AccountId] {build : List (AccountId × Balance) → AccountId → Balance}
  (inOrder : InsertsInOrder build)
include inOrder

/-- Accounts that are listed last, with one amount, have that amount; the
others have what they had. -/
theorem InsertsInOrder.build_append (balances : List (AccountId × Balance))
    (accounts : List AccountId) (amount : Balance) (account : AccountId) :
    build (balances ++ accounts.map fun k => (k, amount)) account =
      if account ∈ accounts then amount else build balances account := by
  induction accounts using List.reverseRecOn with
  | nil => simp
  | append_singleton earlier last ih =>
      rw [List.map_append, List.map_singleton, ← List.append_assoc]
      by_cases same : account = last
      · rw [same, inOrder.last, if_pos (List.mem_append_right earlier List.mem_cons_self)]
      · rw [inOrder.other _ _ _ _ same, ih]
        simp only [List.mem_append, List.mem_singleton, same, or_false]

/-- With two lists of accounts, the first with the amount `first` and the
second with the amount `second`, what is listed exceeds what the accounts have
by `first` for every account of both lists. -/
theorem InsertsInOrder.listed_eq_held_add {endowed staked : List AccountId}
    (endowedDistinct : endowed.Nodup) (stakedDistinct : staked.Nodup) (first second : Balance) :
    let balances := (endowed.map fun k => (k, first)) ++ staked.map fun k => (k, second)
    (balances.map fun entry => entry.2.toNat).sum =
      ((balances.map Prod.fst).dedup.map fun account => (build balances account).toNat).sum +
        (endowed.filter (· ∈ staked)).length * first.toNat := by
  intro balances
  have kept : ∀ account ∈ endowed ++ staked,
      build balances account = if account ∈ staked then second else first := by
    intro account named
    have endowment := inOrder.build_append [] endowed first account
    rw [List.nil_append] at endowment
    rw [inOrder.build_append, endowment]
    rcases List.mem_append.mp named with listed | listed
    · rw [if_pos listed]
    · rw [if_pos listed, if_pos listed]
  have names : balances.map Prod.fst = endowed ++ staked := by
    simp [balances, Function.comp_def]
  -- each account once: the endowed accounts that do not stake, then those that do
  have once : (endowed ++ staked).dedup.Perm (endowed.filter (· ∉ staked) ++ staked) := by
    apply (List.perm_ext_iff_of_nodup (List.nodup_dedup _) ?_).mpr
    · intro account
      by_cases stakes : account ∈ staked <;> simp [stakes]
    · apply List.nodup_append'.mpr
      refine ⟨endowedDistinct.filter _, stakedDistinct, ?_⟩
      intro account outside inside
      exact absurd inside (by simpa using (List.mem_filter.mp outside).2)
  have heldFirst : ((endowed.filter (· ∉ staked)).map fun account =>
      (build balances account).toNat).sum = (endowed.filter (· ∉ staked)).length * first.toNat := by
    rw [List.sum_eq_card_nsmul _ first.toNat, List.length_map, smul_eq_mul]
    intro amount member
    rcases List.mem_map.mp member with ⟨account, listed, rfl⟩
    rcases List.mem_filter.mp listed with ⟨listed, outside⟩
    rw [kept account (List.mem_append_left staked listed), if_neg (by simpa using outside)]
  have heldSecond : (staked.map fun account => (build balances account).toNat).sum =
      staked.length * second.toNat := by
    rw [List.sum_eq_card_nsmul _ second.toNat, List.length_map, smul_eq_mul]
    intro amount member
    rcases List.mem_map.mp member with ⟨account, listed, rfl⟩
    rw [kept account (List.mem_append_right endowed listed), if_pos listed]
  have held : ((endowed ++ staked).dedup.map fun account => (build balances account).toNat).sum =
      (endowed.filter (· ∉ staked)).length * first.toNat + staked.length * second.toNat := by
    rw [(once.map _).sum_eq, List.map_append, List.sum_append, heldFirst, heldSecond]
  have listed : (balances.map fun entry => entry.2.toNat).sum =
      endowed.length * first.toNat + staked.length * second.toNat := by
    simp [balances, Function.comp_def]
  have lengths : endowed.length =
      (endowed.filter (· ∈ staked)).length + (endowed.filter (· ∉ staked)).length := by
    have split := List.length_eq_length_filter_add (l := endowed) (· ∈ staked)
    simpa using split
  rw [names, held, listed, lengths, Nat.add_mul]
  omega

end Excess

/-- If no stash and no endowed account is repeated, what the genesis records as
issued exceeds what the accounts have by one endowment for every endowed account
that is a stash: such an account has the stake and not the endowment. -/
theorem recorded_issuance_exceeds [DecidableEq AccountId]
    {build : List (AccountId × Balance) → AccountId → Balance} (inOrder : InsertsInOrder build)
    (keys : KeyDerivation AccountId Grandpa Babe ImOnline AuthorityDiscovery)
    (wasmBinary : List UInt8)
    (initialAuthorities : List (Authority AccountId Grandpa Babe ImOnline AuthorityDiscovery))
    (rootKey : AccountId) (endowedAccounts : Option (List AccountId)) (enablePrintln : Bool)
    (stashesDistinct : (initialAuthorities.map Prod.fst).Nodup)
    (endowedDistinct : (endowedOrDefault keys endowedAccounts).Nodup) :
    let config := testnetGenesis keys wasmBinary initialAuthorities rootKey endowedAccounts
      enablePrintln
    (∀ authority ∈ initialAuthorities, build config.balances authority.1 = stake) ∧
      (config.balances.map fun entry => entry.2.toNat).sum =
        ((config.balances.map Prod.fst).dedup.map fun account =>
          (build config.balances account).toNat).sum +
        ((endowedOrDefault keys endowedAccounts).filter
          (· ∈ initialAuthorities.map Prod.fst)).length * endowment.toNat := by
  intro config
  have balances : config.balances =
      ((endowedOrDefault keys endowedAccounts).map fun k => (k, endowment)) ++
        (initialAuthorities.map Prod.fst).map fun k => (k, stake) := by
    rw [List.map_map]
    rfl
  rw [balances]
  refine ⟨?_, inOrder.listed_eq_held_add endowedDistinct stashesDistinct endowment stake⟩
  intro authority member
  rw [inOrder.build_append, if_pos (List.mem_map_of_mem member)]

/-- In the development network one endowed account is a stash, that of Alice,
and the recorded issuance is too large by one endowment. -/
theorem recorded_issuance_exceeds_development :
    let config := developmentConfigGenesis plainKeys []
    (endowedOrDefault plainKeys none).filter
        (· ∈ [authorityKeysFromSeed plainKeys "Alice"].map Prod.fst) = ["//Alice//stash"] ∧
      (insertBalances config.balances).get "//Alice//stash" = stake ∧
      (config.balances.map fun entry => entry.2.toNat).sum =
        ((config.balances.map Prod.fst).dedup.map fun account =>
          ((insertBalances config.balances).get account).toNat).sum + endowment.toNat := by
  intro config
  have exceeds := recorded_issuance_exceeds insertsInOrder_insertBalances plainKeys []
    [authorityKeysFromSeed plainKeys "Alice"] (getAccountIdFromSeed plainKeys "Alice") none true
    (List.nodup_singleton _) (by decide +kernel)
  have one : (endowedOrDefault plainKeys none).filter
      (· ∈ [authorityKeysFromSeed plainKeys "Alice"].map Prod.fst) = ["//Alice//stash"] := by
    decide +kernel
  rw [one, List.length_singleton, Nat.one_mul] at exceeds
  exact ⟨one, exceeds.1 _ List.mem_cons_self, exceeds.2⟩

end Cli
end IpciBlockchain
