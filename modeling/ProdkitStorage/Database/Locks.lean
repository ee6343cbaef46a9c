import ProdkitStorage.Foundation.LockTable
import ProdkitStorage.Foundation.Transition
import ProdkitStorage.Python.Bytes
import ProdkitStorage.Python.Error
import ProdkitStorage.Python.Text

/-!
# Advisory locks

`database/locks.py`.  A resource is a namespace and a key.  `advisory_lock_key`
hashes the two joined by a colon, so two resources whose texts are joined to one
text have one lock.  This is so exactly if one namespace goes on, after a colon,
with what the other has at the start of its key; `Aliases` says so.

PostgreSQL has the table of the locks.  `pg_try_advisory_xact_lock` takes a lock
for a transaction unless another one holds it, and the lock goes when the
transaction ends or is rolled back to a savepoint before it.  BLAKE2b is a
parameter.
-/

namespace ProdkitStorage.Database

open ProdkitStorage.Foundation
open ProdkitStorage.Python

/-- `f"{namespace}:{key}".encode()`. -/
def lockBytes (namespace_ key : String) : List UInt8 := encodeUtf8 (namespace_ ++ ":" ++ key)

/-- `advisory_lock_key`.  `blake2b` is `hashlib.blake2b(data, digest_size=8).digest()`. -/
def advisoryLockKey (blake2b : List UInt8 → List UInt8) (namespace_ key : String) : Int :=
  intFromBytes (blake2b (lockBytes namespace_ key))

/-- `acquire_advisory_xact_lock` in a transaction, and `acquire_advisory_xact_lock_async`. -/
def acquireAdvisoryXactLock {Txn : Type} [DecidableEq Txn] (blake2b : List UInt8 → List UInt8)
    (txn : Txn) (namespace_ key : String) (required : Bool) (locks : LockTable Txn Int) :
    Except PyError Bool × LockTable Txn Int :=
  let (acquired, locks) := locks.tryLock txn (advisoryLockKey blake2b namespace_ key)
  if required && !acquired then
    (.error (.lockNotAcquiredError
      ("could not acquire PostgreSQL advisory lock " ++ namespace_ ++ ":" ++ key)), locks)
  else (.ok acquired, locks)

/-! ## Resources -/

/-- What a lock is for. -/
structure Resource where
  namespace_ : String
  key : String
deriving DecidableEq, Repr

namespace Resource

/-- The bytes that are hashed for a resource. -/
def bytes (resource : Resource) : List UInt8 := lockBytes resource.namespace_ resource.key

/-- The key of its lock. -/
def lockKey (blake2b : List UInt8 → List UInt8) (resource : Resource) : Int :=
  advisoryLockKey blake2b resource.namespace_ resource.key

/-- The other namespace goes on with a colon and a text, which the key of the resource starts
with. -/
def Continues (resource other : Resource) : Prop :=
  ∃ text, other.namespace_ = resource.namespace_ ++ ":" ++ text ∧
    resource.key = text ++ ":" ++ other.key

/-- Two resources that are joined to one text. -/
def Aliases (resource other : Resource) : Prop :=
  resource.Continues other ∨ other.Continues resource

theorem Continues.bytes_eq {resource other : Resource} (h : resource.Continues other) :
    resource.bytes = other.bytes := by
  obtain ⟨text, hnamespace, hkey⟩ := h
  rw [bytes, bytes, lockBytes, lockBytes, hnamespace, hkey]
  simp only [String.append_assoc]

/-- Two texts with a colon in them are split at the same colon, or one of them at a later one. -/
theorem continues_of_append {resource other : Resource} {text : List Char}
    (hnamespace : other.namespace_.toList = resource.namespace_.toList ++ text)
    (hkey : ':' :: resource.key.toList = text ++ ':' :: other.key.toList) :
    resource = other ∨ resource.Continues other := by
  cases text with
  | nil =>
      left
      rw [List.append_nil] at hnamespace
      rw [List.nil_append, List.cons.injEq] at hkey
      obtain ⟨namespace_, key⟩ := resource
      rw [Resource.mk.injEq]
      exact ⟨String.toList_inj.mp hnamespace.symm, String.toList_inj.mp hkey.2⟩
  | cons c text =>
      right
      rw [List.cons_append, List.cons.injEq] at hkey
      obtain ⟨rfl, hkey⟩ := hkey
      refine ⟨String.ofList text, String.toList_inj.mp ?_, String.toList_inj.mp ?_⟩
      · rw [hnamespace]
        simp
      · rw [hkey]
        simp

/-- Exactly the aliases of a resource have its bytes. -/
theorem bytes_eq_iff {resource other : Resource} :
    resource.bytes = other.bytes ↔ resource = other ∨ resource.Aliases other := by
  constructor
  · intro h
    have htext := congrArg String.toList (encodeUtf8_inj h)
    have hcolon : (":" : String).toList = [':'] := rfl
    simp only [String.toList_append, hcolon, List.append_assoc, List.singleton_append] at htext
    rcases List.append_eq_append_iff.mp htext with ⟨text, hnamespace, hkey⟩ |
      ⟨text, hnamespace, hkey⟩
    · exact (continues_of_append hnamespace hkey).imp_right Or.inl
    · exact (continues_of_append hnamespace hkey).imp Eq.symm Or.inr
  · rintro (rfl | h | h)
    · rfl
    · exact h.bytes_eq
    · exact h.bytes_eq.symm

/-- Namespaces without a colon have no aliases. -/
theorem not_aliases_of_no_colon {resource other : Resource}
    (h : ':' ∉ resource.namespace_.toList) (h' : ':' ∉ other.namespace_.toList) :
    ¬resource.Aliases other := by
  have hno : ∀ {a b : Resource}, ':' ∉ b.namespace_.toList → ¬a.Continues b := by
    rintro a b hb ⟨text, hnamespace, -⟩
    rw [hnamespace] at hb
    simp at hb
  rintro (hc | hc)
  · exact hno h' hc
  · exact hno h hc

variable {blake2b : List UInt8 → List UInt8}

/-- The keys of locks are 64-bit integers. -/
theorem lockKey_range (hsize : ∀ data, (blake2b data).length = 8) (resource : Resource) :
    -2 ^ 63 ≤ resource.lockKey blake2b ∧ resource.lockKey blake2b < 2 ^ 63 := by
  have hrange := intFromBytes_range (blake2b resource.bytes)
  rw [hsize] at hrange
  have hkey : resource.lockKey blake2b = intFromBytes (blake2b resource.bytes) := rfl
  rw [hkey]
  omega

/-- No two texts of these resources have one digest. -/
def CollisionFree (blake2b : List UInt8 → List UInt8) (used : Set Resource) : Prop :=
  ∀ resource ∈ used, ∀ other ∈ used, blake2b resource.bytes = blake2b other.bytes →
    resource.bytes = other.bytes

/-- Exactly the aliases of a resource have its lock. -/
theorem lockKey_eq_iff (hsize : ∀ data, (blake2b data).length = 8) {used : Set Resource}
    (hfree : CollisionFree blake2b used) {resource other : Resource} (hr : resource ∈ used)
    (ho : other ∈ used) :
    resource.lockKey blake2b = other.lockKey blake2b ↔
      resource = other ∨ resource.Aliases other := by
  rw [← bytes_eq_iff]
  constructor
  · intro h
    refine hfree resource hr other ho (intFromBytes_inj ?_ h)
    rw [hsize, hsize]
  · exact fun h => congrArg (fun data => intFromBytes (blake2b data)) h

end Resource

/-! ## Transactions -/

section Transactions

variable {Txn : Type} [DecidableEq Txn] {blake2b : List UInt8 → List UInt8}

theorem acquireAdvisoryXactLock_free {txn : Txn} {resource : Resource} {required : Bool}
    {locks : LockTable Txn Int} (h : ¬locks.Blocked txn (resource.lockKey blake2b)) :
    acquireAdvisoryXactLock blake2b txn resource.namespace_ resource.key required locks =
      (.ok true, locks.take txn (resource.lockKey blake2b) h) := by
  have hlock : locks.tryLock txn (advisoryLockKey blake2b resource.namespace_ resource.key) = _ :=
    LockTable.tryLock_free h
  unfold acquireAdvisoryXactLock
  rw [hlock]
  simp

theorem acquireAdvisoryXactLock_blocked {txn : Txn} {resource : Resource}
    {locks : LockTable Txn Int} (h : locks.Blocked txn (resource.lockKey blake2b))
    (required : Bool) :
    acquireAdvisoryXactLock blake2b txn resource.namespace_ resource.key required locks =
      (if required then .error (.lockNotAcquiredError ("could not acquire PostgreSQL advisory lock "
          ++ resource.namespace_ ++ ":" ++ resource.key))
        else .ok false, locks) := by
  have hlock : locks.tryLock txn (advisoryLockKey blake2b resource.namespace_ resource.key) = _ :=
    LockTable.tryLock_blocked h
  unfold acquireAdvisoryXactLock
  rw [hlock]
  cases required with
  | true => rfl
  | false => rfl

/-- A call fails exactly if another transaction holds the lock of its key. -/
theorem acquireAdvisoryXactLock_fails_iff {txn : Txn} {resource : Resource} {required : Bool}
    {locks : LockTable Txn Int} :
    (acquireAdvisoryXactLock blake2b txn resource.namespace_ resource.key required locks).1 ≠
        .ok true ↔
      locks.Blocked txn (resource.lockKey blake2b) := by
  constructor
  · intro hfails
    by_contra h
    rw [acquireAdvisoryXactLock_free h] at hfails
    exact hfails rfl
  · intro h
    rw [acquireAdvisoryXactLock_blocked h required]
    cases required with
    | true => simp
    | false => simp

/-- The locks of the database, and the resources that transactions took them for. -/
structure LockState (Txn : Type) where
  locks : LockTable Txn Int
  taken : List (Txn × Resource)

/-- What a transaction does. -/
inductive LockLabel (Txn : Type) where
  | acquire (txn : Txn) (resource : Resource) (required : Bool) (outcome : Except PyError Bool)
  | rollback (txn : Txn) (count : Nat)
  | finish (txn : Txn)

/-- The steps of transactions that lock resources in `used`. -/
inductive LockStep (blake2b : List UInt8 → List UInt8) (used : Set Resource) :
    LockState Txn → LockLabel Txn → LockState Txn → Prop where
  | acquired {s : LockState Txn} {txn : Txn} {resource : Resource} {required : Bool}
      {locks : LockTable Txn Int} :
      resource ∈ used →
      acquireAdvisoryXactLock blake2b txn resource.namespace_ resource.key required s.locks =
        (.ok true, locks) →
      LockStep blake2b used s (.acquire txn resource required (.ok true))
        ⟨locks, (txn, resource) :: s.taken⟩
  | refused {s : LockState Txn} {txn : Txn} {resource : Resource} {required : Bool}
      {outcome : Except PyError Bool} {locks : LockTable Txn Int} :
      resource ∈ used →
      acquireAdvisoryXactLock blake2b txn resource.namespace_ resource.key required s.locks =
        (outcome, locks) →
      outcome ≠ .ok true →
      LockStep blake2b used s (.acquire txn resource required outcome) ⟨locks, s.taken⟩
  | rollback (s : LockState Txn) (txn : Txn) (count : Nat) :
      LockStep blake2b used s (.rollback txn count)
        ⟨s.locks.rollback txn count, dropNewest txn count s.taken⟩
  | finish (s : LockState Txn) (txn : Txn) :
      LockStep blake2b used s (.finish txn) ⟨s.locks.finish txn, dropAll txn s.taken⟩

/-- Transactions over a database that starts without locks. -/
def lockSystem (Txn : Type) [DecidableEq Txn] (blake2b : List UInt8 → List UInt8)
    (used : Set Resource) : System (LockState Txn) (LockLabel Txn) where
  init s := s = ⟨.empty, []⟩
  step := LockStep blake2b used

namespace LockState

/-- Another transaction holds the lock of the resource. -/
def HeldByOther (s : LockState Txn) (txn : Txn) (resource : Resource) : Prop :=
  ∃ other, other ≠ txn ∧ (other, resource) ∈ s.taken

/-- Another transaction holds the lock of an alias of the resource. -/
def AliasHeldByOther (s : LockState Txn) (txn : Txn) (resource : Resource) : Prop :=
  ∃ other, other ≠ txn ∧ ∃ resource', (other, resource') ∈ s.taken ∧ resource.Aliases resource'

/-- Every lock was taken for a resource in `used`. -/
structure Sound (blake2b : List UInt8 → List UInt8) (used : Set Resource) (s : LockState Txn) :
    Prop where
  keyed : s.locks.Keyed (Resource.lockKey blake2b) s.taken
  mem_used : ∀ entry ∈ s.taken, entry.2 ∈ used

/-- A call fails exactly if another transaction holds the lock of the resource or of an alias. -/
theorem Sound.fails_iff {used : Set Resource} {s : LockState Txn} (h : s.Sound blake2b used)
    (hsize : ∀ data, (blake2b data).length = 8)
    (hfree : Resource.CollisionFree blake2b used) {txn : Txn} {resource : Resource}
    (hused : resource ∈ used) {required : Bool} :
    (acquireAdvisoryXactLock blake2b txn resource.namespace_ resource.key required s.locks).1 ≠
        .ok true ↔
      s.HeldByOther txn resource ∨ s.AliasHeldByOther txn resource := by
  have hkey : ∀ {other : Txn} {resource' : Resource}, (other, resource') ∈ s.taken →
      (resource'.lockKey blake2b = resource.lockKey blake2b ↔
        resource = resource' ∨ resource.Aliases resource') := by
    intro other resource' hmem
    rw [eq_comm]
    exact Resource.lockKey_eq_iff hsize hfree hused (h.mem_used _ hmem)
  rw [acquireAdvisoryXactLock_fails_iff, h.keyed.blocked_iff]
  constructor
  · rintro ⟨other, hother, resource', hmem, heq⟩
    rcases (hkey hmem).mp heq with rfl | halias
    · exact .inl ⟨other, hother, hmem⟩
    · exact .inr ⟨other, hother, resource', hmem, halias⟩
  · rintro (⟨other, hother, hmem⟩ | ⟨other, hother, resource', hmem, halias⟩)
    · exact ⟨other, hother, resource, hmem, rfl⟩
    · exact ⟨other, hother, resource', hmem, (hkey hmem).mpr (.inr halias)⟩

end LockState

/-- A step keeps the locks and the resources they were taken for together. -/
theorem LockStep.sound {used : Set Resource} {s t : LockState Txn} {label : LockLabel Txn}
    (hstep : LockStep blake2b used s label t) (h : s.Sound blake2b used) :
    t.Sound blake2b used := by
  cases hstep with
  | @acquired txn resource required locks hused hdone =>
      have hfree : ¬s.locks.Blocked txn (resource.lockKey blake2b) := by
        rw [← acquireAdvisoryXactLock_fails_iff, hdone]
        exact fun hne => hne rfl
      rw [acquireAdvisoryXactLock_free hfree] at hdone
      obtain ⟨-, rfl⟩ := Prod.mk.inj hdone
      exact ⟨h.keyed.take hfree, List.forall_mem_cons.mpr ⟨hused, h.mem_used⟩⟩
  | @refused txn resource required outcome locks hused hdone hfails =>
      have hblocked : s.locks.Blocked txn (resource.lockKey blake2b) := by
        rw [← acquireAdvisoryXactLock_fails_iff, hdone]
        exact hfails
      rw [acquireAdvisoryXactLock_blocked hblocked] at hdone
      obtain ⟨-, rfl⟩ := Prod.mk.inj hdone
      exact ⟨h.keyed, h.mem_used⟩
  | rollback txn count =>
      exact ⟨h.keyed.rollback txn count,
        fun entry hmem => h.mem_used entry ((dropNewest_sublist _ _ _).subset hmem)⟩
  | finish txn =>
      exact ⟨h.keyed.finish txn, fun entry hmem => h.mem_used entry (List.mem_filter.mp hmem).1⟩

theorem sound_of_reaches {used : Set Resource} {h : List (LockLabel Txn)} {s : LockState Txn}
    (hr : (lockSystem Txn blake2b used).Reaches h s) : s.Sound blake2b used := by
  refine hr.invariant (I := fun _ s => s.Sound blake2b used) ?_ ?_
  · rintro s rfl
    exact ⟨rfl, by simp⟩
  · intro _ s label t _ hs hstep
    exact LockStep.sound hstep hs

/-- Two resources have one lock exactly if they are aliases, and a call fails without another
transaction that holds the lock of its resource exactly if one holds the lock of an alias. -/
theorem advisory_locks_iff (Txn : Type) [DecidableEq Txn] (blake2b : List UInt8 → List UInt8)
    (used : Set Resource) (hsize : ∀ data, (blake2b data).length = 8)
    (hfree : Resource.CollisionFree blake2b used) :
    (∀ resource : Resource,
      -2 ^ 63 ≤ resource.lockKey blake2b ∧ resource.lockKey blake2b < 2 ^ 63) ∧
    (∀ resource other : Resource, resource ≠ other →
      (resource.bytes ≠ other.bytes ↔ ¬resource.Aliases other)) ∧
    (∀ resource ∈ used, ∀ other ∈ used, resource ≠ other →
      (resource.lockKey blake2b ≠ other.lockKey blake2b ↔ ¬resource.Aliases other)) ∧
    ∀ h s, (lockSystem Txn blake2b used).Reaches h s →
      ∀ txn, ∀ resource ∈ used, ∀ required,
        (((acquireAdvisoryXactLock blake2b txn resource.namespace_ resource.key required
              s.locks).1 ≠ .ok true → s.HeldByOther txn resource) ↔
          (s.AliasHeldByOther txn resource → s.HeldByOther txn resource)) := by
  refine ⟨Resource.lockKey_range hsize, ?bytes, ?keys, ?runs⟩
  case bytes =>
    intro resource other hne
    rw [ne_eq, Resource.bytes_eq_iff]
    simp [hne]
  case keys =>
    intro resource hr other ho hne
    rw [ne_eq, Resource.lockKey_eq_iff hsize hfree hr ho]
    simp [hne]
  case runs =>
    intro h s hr txn resource hused required
    rw [(sound_of_reaches hr).fails_iff hsize hfree hused]
    constructor
    · exact fun himp halias => himp (.inr halias)
    · intro himp hheld
      rcases hheld with hheld | halias
      · exact hheld
      · exact himp halias

end Transactions

/-! ## Two periods of billing -/

/-- The period of a tenant, in the namespace of all tenants. -/
def billingResource : Resource := ⟨"billing", "acme:2026-01"⟩

/-- The period, in the namespace of the tenant. -/
def tenantResource : Resource := ⟨"billing:acme", "2026-01"⟩

/-- BLAKE2b on `"billing:acme:2026-01"`, `"invoice:123"` and `"order:123"`. -/
def knownBlake2b (data : List UInt8) : List UInt8 :=
  if data = encodeUtf8 "billing:acme:2026-01" then [0xc7, 0xe5, 0x0e, 0x65, 0x6f, 0xa1, 0xb1, 0xea]
  else if data = encodeUtf8 "invoice:123" then [0x4a, 0x37, 0xd4, 0xa4, 0xa6, 0x3c, 0xa8, 0x5a]
  else if data = encodeUtf8 "order:123" then [0x90, 0x78, 0xcf, 0x0b, 0x59, 0x83, 0x4a, 0x08]
  else List.replicate 8 0

theorem length_knownBlake2b (data : List UInt8) : (knownBlake2b data).length = 8 := by
  unfold knownBlake2b
  split
  · rfl
  · split
    · rfl
    · split
      · rfl
      · rfl

/-- Another transaction that has locked the period for all tenants keeps the tenant from its own
lock. -/
theorem billing_locks_alias :
    billingResource ≠ tenantResource ∧ billingResource.bytes = tenantResource.bytes ∧
    ∃ h, ∃ s : LockState ℕ,
      (lockSystem ℕ knownBlake2b {billingResource, tenantResource}).Reaches h s ∧
      (acquireAdvisoryXactLock knownBlake2b 2 "billing:acme" "2026-01" true s.locks).1 =
        .error (.lockNotAcquiredError
          "could not acquire PostgreSQL advisory lock billing:acme:2026-01") ∧
      ¬s.HeldByOther 2 tenantResource := by
  have hfree : ¬(LockTable.empty : LockTable ℕ Int).Blocked 1
      (billingResource.lockKey knownBlake2b) := by
    rintro ⟨other, -, hmem⟩
    cases hmem
  have hsame : tenantResource.lockKey knownBlake2b = billingResource.lockKey knownBlake2b := rfl
  have hstep : LockStep knownBlake2b {billingResource, tenantResource} ⟨.empty, []⟩
      (.acquire 1 billingResource true (.ok true))
      ⟨LockTable.empty.take 1 (billingResource.lockKey knownBlake2b) hfree,
        [(1, billingResource)]⟩ :=
    .acquired (Set.mem_insert _ _) (acquireAdvisoryXactLock_free hfree)
  refine ⟨by decide, rfl, _, _, (System.Reaches.init rfl).step hstep, ?_, ?_⟩
  · have hblocked : (LockTable.empty.take 1 (billingResource.lockKey knownBlake2b) hfree).Blocked 2
        (tenantResource.lockKey knownBlake2b) := by
      rw [hsame]
      exact ⟨1, by decide, List.mem_cons_self⟩
    exact congrArg Prod.fst (acquireAdvisoryXactLock_blocked hblocked true)
  · rintro ⟨other, -, hmem⟩
    rw [List.mem_singleton] at hmem
    exact absurd (Prod.mk.inj hmem).2 (by decide)

/-- The resources of the two namespaces of the test. -/
def invoiceResource : Resource := ⟨"invoice", "123"⟩

def orderResource : Resource := ⟨"order", "123"⟩

theorem invoice_lock_ne_order_lock :
    invoiceResource.lockKey knownBlake2b ≠ orderResource.lockKey knownBlake2b := by
  have hfree : Resource.CollisionFree knownBlake2b {invoiceResource, orderResource} := by
    rintro resource (rfl | rfl) other (rfl | rfl) heq
    · rfl
    · exact absurd heq (by decide)
    · exact absurd heq (by decide)
    · rfl
  obtain ⟨-, -, hkeys, -⟩ := advisory_locks_iff ℕ knownBlake2b _ length_knownBlake2b hfree
  refine (hkeys _ (Set.mem_insert _ _) _ (Set.mem_insert_of_mem _ rfl) (by decide)).mpr ?_
  exact Resource.not_aliases_of_no_colon (by decide) (by decide)

end ProdkitStorage.Database
