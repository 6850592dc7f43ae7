import Fauxchange.Auth.RateLimiter
import Fauxchange.Exchange.Executor

/-! The account registry behind both credential paths: the accounts by id and by FIX username, the gated mint of their
tokens, the password check of a logon, and the revocation epochs. -/

namespace Fauxchange.Auth
open Exchange hiding VenueError
open Lib
open Fauxchange.Fix (Permission VenueError)
open MarketData (isMarketMakerAccount)

/-- The claim set of a token: its subject is the account. -/
structure Claims where
  sub : AccountId
  permissions : List Permission
  iat : Nat
  exp : Nat
  revocationEpoch : Nat
  deriving DecidableEq, Repr

def Claims.hasPermission (claims : Claims) (required : Permission) : Bool :=
  claims.permissions.any fun held => held.grants required

inductive AuthError where
  | signing
  | bootstrapDisabled
  | bootstrapMismatch
  | passwordHash
  | provisioning (label : String)
  | unknownAccount
  | accountRevoked
  | tokenLifetime
  deriving DecidableEq, Repr

/-- Inputs of one length are compared in full. -/
def constantTimeEq (a b : List UInt8) : Bool :=
  if a.length ≠ b.length then false
  else (a.zip b).foldl (fun diff pair => diff ||| (pair.1 ^^^ pair.2)) 0 = 0

/-- Without a secret no token is issued. -/
structure BootstrapGate where
  secret : Option String
  deriving DecidableEq, Repr

def BootstrapGate.authorize (gate : BootstrapGate) (presented : String) : Except AuthError Unit :=
  match gate.secret with
  | none => .error .bootstrapDisabled
  | some secret =>
    if constantTimeEq secret.toUTF8.data.toList presented.toUTF8.data.toList then .ok () else .error .bootstrapMismatch

/-- The signing library: the token of some claims, and the claims of a token that verifies at a wall-clock second. -/
structure JwtAuth where
  encode : Claims → Option String
  decode : Nat → String → Option Claims

def JwtAuth.mintToken (jwt : JwtAuth) (gate : BootstrapGate) (presented : String) (claims : Claims) :
    Except AuthError String := do
  gate.authorize presented
  match jwt.encode claims with
  | some token => .ok token
  | none => .error .signing

/-- Every failure is one error. -/
def JwtAuth.verifyToken (jwt : JwtAuth) (nowSecs : Nat) (token : String) : Except VenueError Claims :=
  match jwt.decode nowSecs token with
  | some claims => .ok claims
  | none => .error .unauthorized

structure CompIdBinding where
  senderCompId : String
  targetCompId : String
  deriving DecidableEq, Repr

structure Credentials where
  fixUsername : Option String
  passwordHash : Option String
  fixCompIds : Option CompIdBinding
  deriving DecidableEq, Repr

structure Account where
  id : AccountId
  owner : Hash32
  permissions : List Permission
  credentials : Credentials
  revocationEpoch : Nat
  deriving DecidableEq, Repr

/-- An account to be provisioned, with the password in the clear. -/
structure AccountProvision where
  id : AccountId
  owner : Hash32
  permissions : List Permission
  fixUsername : Option String
  fixPassword : Option String
  fixCompIds : Option CompIdBinding
  deriving DecidableEq, Repr

/-- The hashing library, keyed with the pepper, over stored hashes: whether one is well formed, its three costs, the
comparison with a password, which may fail, and a new hash under a salt. -/
structure Argon2 where
  wellFormed : String → Bool
  params : String → Option (Nat × Nat × Nat)
  verifyPassword : String → String → Option Bool
  hashPassword : String → String → Option String

inductive PasswordVerification where
  | verified
  | verifiedRehash (fresh : String)
  | rejected
  deriving DecidableEq, Repr

structure Argon2Hasher where
  argon2 : Argon2
  mCost : Nat
  tCost : Nat
  pCost : Nat

namespace Argon2Hasher
variable (hasher : Argon2Hasher)

def hash (salt plaintext : String) : Except AuthError String :=
  match hasher.argon2.hashPassword salt plaintext with
  | some phc => .ok phc
  | none => .error .passwordHash

def hashGiven (salt : String) : Option String → Except AuthError (Option String)
  | some plaintext => (hasher.hash salt plaintext).map some
  | none => .ok none

/-- Unreadable costs count as weaker ones. -/
def needsRehash (parsed : String) : Bool :=
  match hasher.argon2.params parsed with
  | some (mCost, tCost, pCost) => mCost < hasher.mCost || tCost < hasher.tCost || pCost < hasher.pCost
  | none => true

def verify (salt plaintext storedPhc : String) : Except AuthError PasswordVerification :=
  if ¬ hasher.argon2.wellFormed storedPhc then .error .passwordHash
  else
    match hasher.argon2.verifyPassword plaintext storedPhc with
    | none => .error .passwordHash
    | some false => .ok .rejected
    | some true =>
      if hasher.needsRehash storedPhc then do .ok (.verifiedRehash (← hasher.hash salt plaintext)) else .ok .verified

end Argon2Hasher

inductive FixLoginOutcome where
  | authenticated (account : AccountId) (permissions : List Permission)
  | rejected
  deriving DecidableEq, Repr

structure AccountRegistry where
  hasher : Argon2Hasher
  byId : Std.ExtTreeMap AccountId Account
  byFixUsername : Std.ExtTreeMap String AccountId

namespace AccountRegistry

def new (hasher : Argon2Hasher) : AccountRegistry := ⟨hasher, ∅, ∅⟩

variable (registry : AccountRegistry)

def account (id : AccountId) : Option Account := registry.byId[id]?

def accountByFixUsername (fixUsername : String) : Option Account :=
  registry.byFixUsername[fixUsername]?.bind registry.account

def currentRevocationEpoch (account : AccountId) : Option Nat := registry.byId[account]?.map Account.revocationEpoch

/-- Both indexes are checked before either is written. -/
def insertAccount (account : Account) : Except AuthError AccountRegistry :=
  if isMarketMakerAccount account.id then .error (.provisioning "reserved market-maker account id")
  else if account.owner = marketMakerOwner then .error (.provisioning "reserved market-maker owner hash")
  else if account.id ∈ registry.byId then .error (.provisioning "duplicate account id")
  else if account.credentials.fixUsername.any (· ∈ registry.byFixUsername) then
    .error (.provisioning "duplicate FIX username")
  else
    .ok { registry with
      byFixUsername := account.credentials.fixUsername.elim registry.byFixUsername
        fun username => registry.byFixUsername.insert username account.id
      byId := registry.byId.insert account.id account }

def provisionAccount (salt : String) (provision : AccountProvision) : Except AuthError AccountRegistry := do
  let passwordHash ← registry.hasher.hashGiven salt provision.fixPassword
  registry.insertAccount ⟨provision.id, provision.owner, provision.permissions,
    ⟨provision.fixUsername, passwordHash, provision.fixCompIds⟩, 0⟩

/-- The secret is checked before the account is looked up, and a revoked account is given no token. -/
def mintForAccount (jwt : JwtAuth) (gate : BootstrapGate) (account : AccountId) (presentedSecret : String)
    (issuedAtSecs ttlSecs : Nat) : Except AuthError (String × Claims) := do
  gate.authorize presentedSecret
  match registry.account account with
  | none => .error .unknownAccount
  | some resolved =>
    if 0 < resolved.revocationEpoch then .error .accountRevoked
    else if u64Max < issuedAtSecs + ttlSecs then .error .tokenLifetime
    else do
      let claims : Claims :=
        ⟨resolved.id, resolved.permissions, issuedAtSecs, issuedAtSecs + ttlSecs, resolved.revocationEpoch⟩
      let token ← jwt.mintToken gate presentedSecret claims
      .ok (token, claims)

/-- An epoch at the ceiling stays there. -/
def revoke (id : AccountId) : Option (Nat × AccountRegistry) :=
  match registry.byId[id]? with
  | none => none
  | some entry =>
    let next := if entry.revocationEpoch < u64Max then entry.revocationEpoch + 1 else u64Max
    some (next, { registry with byId := registry.byId.insert id { entry with revocationEpoch := next } })

/-- A new hash in the place of one with weaker costs, where the account is still there. -/
def persistRehash (id : AccountId) (fresh : String) : AccountRegistry :=
  match registry.byId[id]? with
  | none => registry
  | some entry =>
    { registry with
      byId := registry.byId.insert id { entry with credentials := { entry.credentials with passwordHash := some fresh } } }

/-- An unknown name, an account without a password and a wrong password are one answer. With a match against weaker
costs comes the new hash that is then persisted. -/
def verifyFixPassword (salt fixUsername password : String) : FixLoginOutcome × Option (AccountId × String) :=
  match registry.byFixUsername[fixUsername]? with
  | none => (.rejected, none)
  | some id =>
    match registry.byId[id]? with
    | none => (.rejected, none)
    | some entry =>
      match entry.credentials.passwordHash with
      | none => (.rejected, none)
      | some stored =>
        match registry.hasher.verify salt password stored with
        | .ok .verified => (.authenticated id entry.permissions, none)
        | .ok (.verifiedRehash fresh) => (.authenticated id entry.permissions, some (id, fresh))
        | .ok .rejected | .error _ => (.rejected, none)

end AccountRegistry

section Secrets

theorem foldl_diff_eq_zero (pairs : List (UInt8 × UInt8)) (start : UInt8) :
    pairs.foldl (fun diff pair => diff ||| (pair.1 ^^^ pair.2)) start = 0 ↔
      start = 0 ∧ ∀ pair ∈ pairs, pair.1 = pair.2 := by
  induction pairs generalizing start with
  | nil => simp
  | cons pair rest ih => rw [List.foldl_cons, ih, UInt8.or_eq_zero_iff, UInt8.xor_eq_zero_iff, List.forall_mem_cons, and_assoc]

/-- The comparison that takes as long for every answer is equality. -/
theorem constantTimeEq_iff {a b : List UInt8} : constantTimeEq a b = true ↔ a = b := by
  unfold constantTimeEq
  by_cases long : a.length = b.length
  · rw [if_neg (not_not.2 long), decide_eq_true_eq, foldl_diff_eq_zero]
    constructor
    · rintro ⟨-, same⟩
      refine List.ext_getElem long fun place early late => ?_
      exact same (a[place], b[place]) (List.mem_iff_getElem.2 ⟨place, by simp [early, late], by simp⟩)
    · rintro rfl
      refine ⟨rfl, fun pair member => ?_⟩
      obtain ⟨place, early, rfl⟩ := List.mem_iff_getElem.1 member
      simp
  · rw [if_pos long]
    exact ⟨nofun, fun same => absurd (congrArg List.length same) long⟩

theorem toUTF8_injective {a b : String} (same : a.toUTF8.data.toList = b.toUTF8.data.toList) : a = b :=
  String.toByteArray_inj.1 (ByteArray.ext (Array.toList_inj.1 same))

/-- The gate is cleared by its secret and by nothing else. -/
theorem BootstrapGate.authorize_ok_iff {gate : BootstrapGate} {presented : String} :
    gate.authorize presented = .ok () ↔ gate.secret = some presented := by
  unfold BootstrapGate.authorize
  cases gate.secret with
  | none => exact ⟨nofun, nofun⟩
  | some secret =>
    dsimp only
    split
    next same =>
      obtain rfl := toUTF8_injective (constantTimeEq_iff.1 same)
      exact ⟨fun _ => rfl, fun _ => rfl⟩
    next unlike =>
      refine ⟨nofun, fun same => absurd ?_ unlike⟩
      rw [Option.some.inj same]
      exact constantTimeEq_iff.2 rfl

end Secrets

namespace AccountRegistry
variable {registry middle next : AccountRegistry} {account entry : Account} {id other : AccountId}

/-- Every account is its own, none is the market maker's, and both indexes name the same ones. -/
structure Sound (registry : AccountRegistry) : Prop where
  own : ∀ {id account}, registry.account id = some account → account.id = id
  reserved : ∀ {id account}, registry.account id = some account →
    isMarketMakerAccount id = false ∧ account.owner ≠ marketMakerOwner
  login : ∀ {username id}, registry.byFixUsername[username]? = some id ↔
    ∃ account, registry.account id = some account ∧ account.credentials.fixUsername = some username

/-- The accounts of one registry are still there in another: nothing of them has changed but a password hash, and no
revocation is undone. -/
def Later (registry next : AccountRegistry) : Prop :=
  ∀ id account, registry.account id = some account → ∃ later, next.account id = some later ∧
    later.owner = account.owner ∧ later.permissions = account.permissions ∧
      later.credentials.fixUsername = account.credentials.fixUsername ∧
      later.credentials.fixCompIds = account.credentials.fixCompIds ∧
      (0 < account.revocationEpoch → 0 < later.revocationEpoch)

theorem Later.refl (registry : AccountRegistry) : Later registry registry :=
  fun _ account held => ⟨account, held, rfl, rfl, rfl, rfl, id⟩

theorem Later.trans (first : Later registry middle) (second : Later middle next) : Later registry next := by
  intro id account held
  obtain ⟨between, there, owner, permissions, username, compIds, revoked⟩ := first id account held
  obtain ⟨later, last, owner', permissions', username', compIds', revoked'⟩ := second id between there
  exact ⟨later, last, owner'.trans owner, permissions'.trans permissions, username'.trans username,
    compIds'.trans compIds, revoked' ∘ revoked⟩

theorem sound_new (hasher : Argon2Hasher) : Sound (.new hasher) := by
  refine ⟨?_, ?_, ?_⟩ <;> simp [new, AccountRegistry.account]

/-- An account that is inserted is a new one, under a new name, and not the market maker's. -/
structure Inserted (registry : AccountRegistry) (account : Account) (next : AccountRegistry) : Prop where
  reserved : isMarketMakerAccount account.id = false ∧ account.owner ≠ marketMakerOwner
  fresh : registry.byId[account.id]? = none
  freshName : ∀ username, account.credentials.fixUsername = some username → registry.byFixUsername[username]? = none
  stored : next.byId = registry.byId.insert account.id account
  named : next.byFixUsername = account.credentials.fixUsername.elim registry.byFixUsername
    fun username => registry.byFixUsername.insert username account.id

theorem insertAccount_ok (done : registry.insertAccount account = .ok next) : Inserted registry account next := by
  unfold insertAccount at done
  split at done
  · cases done
  next client =>
  split at done
  · cases done
  next owned =>
  split at done
  · cases done
  next fresh =>
  split at done
  · cases done
  next freshName =>
  cases done
  refine ⟨⟨Bool.eq_false_iff.2 client, owned⟩, Std.ExtTreeMap.getElem?_eq_none fresh, fun username same => ?_, rfl, rfl⟩
  rw [same] at freshName
  exact Std.ExtTreeMap.getElem?_eq_none fun listed => freshName (decide_eq_true listed)

theorem Inserted.reads (inserted : Inserted registry entry next) :
    next.account id = if entry.id = id then some entry else registry.account id := by
  unfold AccountRegistry.account
  rw [inserted.stored, Std.ExtTreeMap.getElem?_insert]
  simp only [compare_eq_iff_eq]

theorem Inserted.later (inserted : Inserted registry entry next) : Later registry next := by
  intro id account held
  refine ⟨account, ?_, rfl, rfl, rfl, rfl, fun revoked => revoked⟩
  rw [inserted.reads, if_neg, held]
  rintro rfl
  have absent := inserted.fresh
  unfold AccountRegistry.account at held
  rw [absent] at held
  cases held

theorem Inserted.sound (inserted : Inserted registry entry next) (sound : Sound registry) : Sound next where
  own held := by
    rw [inserted.reads] at held
    split at held
    next same =>
      cases held
      exact same
    next => exact sound.own held
  reserved held := by
    rw [inserted.reads] at held
    split at held
    next same =>
      cases held
      exact same ▸ inserted.reserved
    next => exact sound.reserved held
  login := by
    intro username id
    have name : next.byFixUsername[username]? =
        if entry.credentials.fixUsername = some username then some entry.id else registry.byFixUsername[username]? := by
      rw [inserted.named]
      cases chosen : entry.credentials.fixUsername with
      | none => simp
      | some own => simp [Std.ExtTreeMap.getElem?_insert]
    rw [name, inserted.reads]
    by_cases mine : entry.credentials.fixUsername = some username
    · rw [if_pos mine]
      by_cases same : entry.id = id
      · rw [if_pos same]
        exact ⟨fun _ => ⟨entry, rfl, mine⟩, fun _ => congrArg some same⟩
      · rw [if_neg same]
        refine ⟨fun other => absurd (Option.some.inj other) same, fun held => ?_⟩
        have taken := sound.login.2 held
        rw [inserted.freshName username mine] at taken
        cases taken
    · rw [if_neg mine, sound.login]
      by_cases same : entry.id = id
      · subst same
        have absent : registry.account entry.id = none := inserted.fresh
        rw [if_pos rfl, absent]
        constructor
        · rintro ⟨account, held, -⟩
          cases held
        · rintro ⟨account, held, chosen⟩
          cases held
          exact absurd chosen mine
      · rw [if_neg same]

theorem provisionAccount_ok {salt : String} {provision : AccountProvision}
    (done : registry.provisionAccount salt provision = .ok next) :
    ∃ account, account.revocationEpoch = 0 ∧ Inserted registry account next := by
  obtain ⟨passwordHash, -, done⟩ := except_bind_ok done
  exact ⟨_, rfl, insertAccount_ok done⟩

/-- A row that is written over itself keeps its name and its rights. -/
structure Rewritten (registry : AccountRegistry) (entry after : Account) (next : AccountRegistry) : Prop where
  held : registry.account entry.id = some entry
  owner : after.owner = entry.owner
  id : after.id = entry.id
  permissions : after.permissions = entry.permissions
  username : after.credentials.fixUsername = entry.credentials.fixUsername
  compIds : after.credentials.fixCompIds = entry.credentials.fixCompIds
  revoked : 0 < entry.revocationEpoch → 0 < after.revocationEpoch
  stored : next.byId = registry.byId.insert entry.id after
  named : next.byFixUsername = registry.byFixUsername

section Rewriting
variable {after : Account}

theorem Rewritten.reads (rewritten : Rewritten registry entry after next) :
    next.account other = if entry.id = other then some after else registry.account other := by
  unfold AccountRegistry.account
  rw [rewritten.stored, Std.ExtTreeMap.getElem?_insert]
  simp only [compare_eq_iff_eq]

theorem Rewritten.later (rewritten : Rewritten registry entry after next) : Later registry next := by
  intro other account held
  rw [rewritten.reads]
  by_cases same : entry.id = other
  · obtain rfl : entry = account := Option.some.inj (rewritten.held.symm.trans (same ▸ held))
    exact ⟨after, if_pos same, rewritten.owner, rewritten.permissions, rewritten.username, rewritten.compIds, rewritten.revoked⟩
  · exact ⟨account, (if_neg same).trans held, rfl, rfl, rfl, rfl, fun revoked => revoked⟩

theorem Rewritten.sound (rewritten : Rewritten registry entry after next) (sound : Sound registry) : Sound next where
  own held := by
    rw [rewritten.reads] at held
    split at held
    next same =>
      cases held
      exact rewritten.id.trans same
    next => exact sound.own held
  reserved held := by
    rw [rewritten.reads] at held
    split at held
    next same =>
      cases held
      rw [rewritten.owner, ← same]
      exact sound.reserved rewritten.held
    next => exact sound.reserved held
  login := by
    intro username other
    rw [rewritten.named, sound.login, rewritten.reads]
    by_cases same : entry.id = other
    · subst same
      rw [if_pos rfl, rewritten.held]
      constructor
      · rintro ⟨account, held, chosen⟩
        cases held
        exact ⟨after, rfl, rewritten.username.trans chosen⟩
      · rintro ⟨account, held, chosen⟩
        cases held
        exact ⟨entry, rfl, rewritten.username.symm.trans chosen⟩
    · rw [if_neg same]

end Rewriting

/-- A revocation leaves the account with an epoch above zero. -/
theorem revoke_some {epoch : Nat} (sound : Sound registry) (done : registry.revoke id = some (epoch, next)) :
    ∃ entry after, entry.id = id ∧ after.revocationEpoch = epoch ∧ 0 < epoch ∧ Rewritten registry entry after next := by
  unfold revoke at done
  split at done
  · cases done
  next entry found =>
    cases done
    obtain rfl : entry.id = id := sound.own found
    have positive : 0 < if entry.revocationEpoch < u64Max then entry.revocationEpoch + 1 else u64Max := by
      split
      · exact Nat.succ_pos _
      · decide
    let epoch := if entry.revocationEpoch < u64Max then entry.revocationEpoch + 1 else u64Max
    exact ⟨entry, { entry with revocationEpoch := epoch }, rfl, rfl, positive, found, rfl, rfl, rfl, rfl, rfl,
      fun _ => positive, rfl, rfl⟩

theorem persistRehash_cases (id : AccountId) (fresh : String) (sound : Sound registry) :
    registry.persistRehash id fresh = registry ∨
      ∃ entry after, Rewritten registry entry after (registry.persistRehash id fresh) := by
  unfold persistRehash
  split
  · exact Or.inl rfl
  next entry found =>
    obtain rfl : entry.id = id := sound.own found
    let credentials := { entry.credentials with passwordHash := some fresh }
    exact Or.inr ⟨entry, { entry with credentials := credentials }, found, rfl, rfl, rfl, rfl, rfl,
      fun revoked => revoked, rfl, rfl⟩

/-- Whoever passes the password check is the account of that name, with its registered permissions. -/
theorem verifyFixPassword_authenticated {salt username password : String} {permissions : List Permission}
    {rehash : Option (AccountId × String)} (sound : Sound registry)
    (passed : registry.verifyFixPassword salt username password = (.authenticated id permissions, rehash)) :
    ∃ account, registry.account id = some account ∧ account.credentials.fixUsername = some username ∧
      account.permissions = permissions := by
  unfold verifyFixPassword at passed
  split at passed
  · cases passed
  next named named' =>
  split at passed
  · cases passed
  next entry found =>
  split at passed
  · cases passed
  next stored hashed =>
  have listed := sound.login.1 named'
  split at passed
  · cases passed
    obtain ⟨account, held, chosen⟩ := listed
    obtain rfl := Option.some.inj (held.symm.trans found)
    exact ⟨account, held, chosen, rfl⟩
  · cases passed
    obtain ⟨account, held, chosen⟩ := listed
    obtain rfl := Option.some.inj (held.symm.trans found)
    exact ⟨account, held, chosen, rfl⟩
  · cases passed
  · cases passed

/-- A token is minted behind the gate, for an account that has not been revoked and with its registered permissions. -/
theorem mintForAccount_ok {jwt : JwtAuth} {gate : BootstrapGate} {presented token : String} {issuedAt ttl : Nat}
    {claims : Claims} (sound : Sound registry)
    (minted : registry.mintForAccount jwt gate id presented issuedAt ttl = .ok (token, claims)) :
    gate.secret = some presented ∧ jwt.encode claims = some token ∧ claims.sub = id ∧ claims.revocationEpoch = 0 ∧
      claims.exp = issuedAt + ttl ∧
        ∃ account, registry.account id = some account ∧ account.revocationEpoch = 0 ∧
          account.permissions = claims.permissions := by
  obtain ⟨⟨⟩, cleared, minted⟩ := except_bind_ok minted
  split at minted
  · cases minted
  next account found =>
  split at minted
  · cases minted
  next live =>
  split at minted
  · cases minted
  obtain ⟨signed, done, minted⟩ := except_bind_ok minted
  cases minted
  obtain ⟨⟨⟩, -, done⟩ := except_bind_ok done
  split at done
  next encoded =>
    cases done
    have epoch : account.revocationEpoch = 0 := Nat.eq_zero_of_not_pos live
    exact ⟨BootstrapGate.authorize_ok_iff.1 cleared, encoded, sound.own found, epoch, rfl, account, found, epoch, rfl⟩
  · cases done

end AccountRegistry

end Fauxchange.Auth
