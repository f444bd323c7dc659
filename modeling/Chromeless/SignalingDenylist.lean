import Chromeless.LibByteString
import Chromeless.LibRuns

/-! Token revocation (`signaling/denylist.go`): bans of a token are filed under the flat key
`tenant:jti`. -/
namespace Chromeless.Signaling
open Json ByteString List Runs

def jtiKey (tenant jti : Bytes) : Bytes := tenant ++ 0x3a :: jti

/-- `StaticDenylist`. The reasons are informational and nothing reads them. -/
structure StaticDenylist where
  tenants : List Bytes
  jtis : List Bytes

def newStaticDenylist : StaticDenylist := ⟨[], []⟩

namespace StaticDenylist

/-- One round of `loadStaticFromEnv`'s loop, with the number of entries loaded. -/
def loadEntry (acc : StaticDenylist × ℕ) (raw : Bytes) : StaticDenylist × ℕ :=
  let (d, loaded) := acc
  let entry := trimSpace raw
  if entry = [] then (d, loaded)
  else match cutByte 0x3a entry with
    | some (tenant, jti) =>
      if tenant ≠ [] ∧ jti ≠ [] then
        ({ d with jtis := d.jtis.insert (jtiKey tenant jti) }, loaded+1)
      else (d, loaded)
    | none => ({ d with tenants := d.tenants.insert entry }, loaded+1)

def loadStaticFromEnv (d : StaticDenylist) (env : Bytes) : StaticDenylist × ℕ :=
  (env.splitOn 0x2c).foldl loadEntry (d, 0)

def contains (d : StaticDenylist) (tenant jti : Bytes) : Bool :=
  d.tenants.contains tenant || (jti != [] && d.jtis.contains (jtiKey tenant jti))

def addTenant (d : StaticDenylist) (tenant : Bytes) : Except Bytes StaticDenylist :=
  if tenant = [] then .error (ascii "tenant required")
  else .ok { d with tenants := d.tenants.insert tenant }

def addJTI (d : StaticDenylist) (tenant jti : Bytes) : Except Bytes StaticDenylist :=
  if tenant = [] ∨ jti = [] then .error (ascii "tenant and jti required")
  else .ok { d with jtis := d.jtis.insert (jtiKey tenant jti) }

end StaticDenylist

/-- The part of a Redis client the denylist uses, over a store of type `σ`. -/
structure RedisClient (σ : Type) where
  sAdd : σ → Bytes → Bytes → Except Bytes σ
  sIsMember : σ → Bytes → Bytes → Except Bytes Bool

namespace RedisDenylist

def keyTenants : Bytes := ascii "cb:auth:denylist:tenants"

def keyJTIs : Bytes := ascii "cb:auth:denylist:jtis"

variable {σ : Type} (client : RedisClient σ)

def contains (store : σ) (tenant jti : Bytes) : Except Bytes Bool :=
  match client.sIsMember store keyTenants tenant with
  | .error e => .error e
  | .ok true => .ok true
  | .ok false => if jti = [] then .ok false else client.sIsMember store keyJTIs (jtiKey tenant jti)

def addTenant (store : σ) (tenant : Bytes) : Except Bytes σ :=
  if tenant = [] then .error (ascii "tenant required") else client.sAdd store keyTenants tenant

def addJTI (store : σ) (tenant jti : Bytes) : Except Bytes σ :=
  if tenant = [] ∨ jti = [] then .error (ascii "tenant and jti required")
  else client.sAdd store keyJTIs (jtiKey tenant jti)

end RedisDenylist

/-- The operations on a static denylist; a refused one leaves it as it was. -/
inductive DenyOp
  | loadStaticFromEnv (env : Bytes)
  | addTenant (tenant : Bytes)
  | addJTI (tenant jti : Bytes)

def StaticDenylist.apply (d : StaticDenylist) : DenyOp → StaticDenylist
  | .loadStaticFromEnv env => (d.loadStaticFromEnv env).1
  | .addTenant tenant => match d.addTenant tenant with
    | .ok d' => d'
    | .error _ => d
  | .addJTI tenant jti => match d.addJTI tenant jti with
    | .ok d' => d'
    | .error _ => d

inductive RedisOp
  | addTenant (tenant : Bytes)
  | addJTI (tenant jti : Bytes)

def RedisDenylist.apply {σ : Type} (client : RedisClient σ) (store : σ) : RedisOp → σ
  | .addTenant tenant => match addTenant client store tenant with
    | .ok store' => store'
    | .error _ => store
  | .addJTI tenant jti => match addJTI client store tenant jti with
    | .ok store' => store'
    | .error _ => store

/-- What an operation is meant to ban. -/
inductive Ban
  | tenant (tenant : Bytes)
  | token (tenant jti : Bytes)
deriving DecidableEq

/-- One entry of `CHROMELESS_DENYLIST`: `tenant` or `tenant:jti`, blanks stripped. -/
def entryBan (raw : Bytes) : Option Ban :=
  let entry := trimSpace raw
  if entry = [] then none
  else match cutByte 0x3a entry with
    | some (tenant, jti) => if tenant ≠ [] ∧ jti ≠ [] then some (.token tenant jti) else none
    | none => some (.tenant entry)

def tenantBan (tenant : Bytes) : List Ban := if tenant = [] then [] else [.tenant tenant]

def tokenBan (tenant jti : Bytes) : List Ban :=
  if tenant = [] ∨ jti = [] then [] else [.token tenant jti]

def DenyOp.bans : DenyOp → List Ban
  | .loadStaticFromEnv env => (env.splitOn 0x2c).filterMap entryBan
  | .addTenant tenant => tenantBan tenant
  | .addJTI tenant jti => tokenBan tenant jti

def RedisOp.bans : RedisOp → List Ban
  | .addTenant tenant => tenantBan tenant
  | .addJTI tenant jti => tokenBan tenant jti

def Banned (bans : List Ban) (tenant jti : Bytes) : Prop :=
  .tenant tenant ∈ bans ∨ .token tenant jti ∈ bans

/-- No token is asked for, or the tenant is banned anyway, or no ban is filed under this token's key
unless this token is banned too. -/
def Unaliased (bans : List Ban) (tenant jti : Bytes) : Prop :=
  jti = [] ∨ .tenant tenant ∈ bans ∨
    ∀ t j, .token t j ∈ bans → jtiKey t j = jtiKey tenant jti → .token tenant jti ∈ bans

def Filed (bans : List Ban) (tenant jti : Bytes) : Prop :=
  .tenant tenant ∈ bans ∨ (jti ≠ [] ∧ ∃ t j, .token t j ∈ bans ∧ jtiKey t j = jtiKey tenant jti)

def NonemptyTokens (bans : List Ban) : Prop := ∀ t j, .token t j ∈ bans → j ≠ []

variable {bans : List Ban} {t : Bytes}

theorem NonemptyTokens.tenant (h : NonemptyTokens bans) : NonemptyTokens (bans ++ [.tenant t]) := by
  intro u i hu
  apply h u i
  simpa using hu

theorem NonemptyTokens.token (h : NonemptyTokens bans) {j : Bytes} (hj : j ≠ []) :
    NonemptyTokens (bans ++ [.token t j]) := by
  intro u i hu
  rcases mem_append.mp hu with hu | hu
  · exact h u i hu
  · obtain ⟨rfl, rfl⟩ : u = t ∧ i = j := by simpa using hu
    exact hj

theorem filed_precise_iff (bans : List Ban) (hne : NonemptyTokens bans) (tenant jti : Bytes) :
    (Filed bans tenant jti ↔ Banned bans tenant jti) ↔ Unaliased bans tenant jti := by
  unfold Filed Banned Unaliased
  by_cases ht : .tenant tenant ∈ bans
  · simp [ht]
  by_cases hj : jti = []
  · have hn : .token tenant jti ∉ bans := fun h => hne _ _ h hj
    simp [ht, hj, hj ▸ hn]
  simp only [ht, hj, false_or, ne_eq, not_false_eq_true, true_and]
  constructor
  · intro h t j htj hk
    exact h.mp ⟨t, j, htj, hk⟩
  · intro h
    exact ⟨fun ⟨t, j, htj, hk⟩ => h t j htj hk, fun h => ⟨tenant, jti, h, rfl⟩⟩

theorem filed_concat (bans : List Ban) (tenant jti k : Bytes) :
    ((∃ t j, .token t j ∈ bans ∧ jtiKey t j = k) ∨ k = jtiKey tenant jti) ↔
      ∃ t j, .token t j ∈ bans ++ [.token tenant jti] ∧ jtiKey t j = k := by
  simp only [mem_append, mem_singleton, Ban.token.injEq]
  constructor
  · rintro (⟨u, i, hu, hk⟩ | rfl)
    · exact ⟨u, i, .inl hu, hk⟩
    · exact ⟨tenant, jti, .inr ⟨rfl, rfl⟩, rfl⟩
  rintro ⟨u, i, hu | ⟨rfl, rfl⟩, hk⟩
  · exact .inl ⟨u, i, hu, hk⟩
  · exact .inr hk.symm

structure StaticDenylist.Holds (d : StaticDenylist) (bans : List Ban) : Prop where
  tenants : ∀ t, t ∈ d.tenants ↔ .tenant t ∈ bans
  jtis : ∀ k, k ∈ d.jtis ↔ ∃ t j, .token t j ∈ bans ∧ jtiKey t j = k
  nonempty : NonemptyTokens bans

namespace StaticDenylist

variable {d : StaticDenylist} {bans : List Ban}

theorem holds_tenant (h : d.Holds bans) (t : Bytes) :
    ({ d with tenants := d.tenants.insert t } : StaticDenylist).Holds (bans ++ [.tenant t]) := by
  refine ⟨?_, ?_, ?_⟩
  · intro u
    simp [h.tenants u, or_comm]
  · intro k
    simp [h.jtis k]
  · exact h.nonempty.tenant

theorem holds_token (h : d.Holds bans) (t j : Bytes) (hj : j ≠ []) :
    ({ d with jtis := d.jtis.insert (jtiKey t j) } : StaticDenylist).Holds
      (bans ++ [.token t j]) := by
  refine ⟨?_, ?_, ?_⟩
  · intro u
    simp [h.tenants u]
  · intro k
    rw [mem_insert_iff, h.jtis k, or_comm]
    exact filed_concat bans t j k
  · exact h.nonempty.token hj

theorem holds_loadEntry (h : d.Holds bans) (n : ℕ) (raw : Bytes) :
    (loadEntry (d, n) raw).1.Holds (bans ++ (entryBan raw).toList) := by
  unfold loadEntry entryBan
  dsimp only
  split
  · simpa using h
  split
  · split
    next hne => exact holds_token h _ _ hne.2
    · simpa using h
  · exact holds_tenant h _

theorem holds_foldl_loadEntry (raws : List Bytes) {acc : StaticDenylist × ℕ} (h : acc.1.Holds bans) :
    (raws.foldl loadEntry acc).1.Holds (bans ++ raws.filterMap entryBan) := by
  induction raws generalizing acc bans with
  | nil => simpa using h
  | cons raw raws ih =>
    have hstep := ih (holds_loadEntry h acc.2 raw)
    cases hb : entryBan raw <;> simpa [hb] using hstep

theorem holds_apply (h : d.Holds bans) (op : DenyOp) : (d.apply op).Holds (bans ++ op.bans) := by
  cases op with
  | loadStaticFromEnv => exact holds_foldl_loadEntry _ h
  | addTenant tenant =>
    by_cases ht : tenant = []
    · simpa [apply, addTenant, DenyOp.bans, tenantBan, ht] using h
    · simpa [apply, addTenant, DenyOp.bans, tenantBan, ht] using holds_tenant h tenant
  | addJTI tenant jti =>
    by_cases ht : tenant = [] ∨ jti = []
    · simpa [apply, addJTI, DenyOp.bans, tokenBan, ht] using h
    · have hj : jti ≠ [] := fun h => ht (.inr h)
      simpa [apply, addJTI, DenyOp.bans, tokenBan, ht] using holds_token h tenant jti hj

theorem holds_run (ops : List DenyOp) (h : d.Holds bans) :
    (run apply d ops).Holds (bans ++ ops.flatMap DenyOp.bans) := by
  induction ops generalizing d bans with
  | nil => simpa using h
  | cons op ops ih =>
    have := ih (holds_apply h op)
    rwa [append_assoc, ← flatMap_cons] at this

theorem holds_new : newStaticDenylist.Holds [] :=
  ⟨by simp [newStaticDenylist], by simp [newStaticDenylist], by simp [NonemptyTokens]⟩

theorem contains_iff_filed (h : d.Holds bans) (tenant jti : Bytes) :
    d.contains tenant jti = true ↔ Filed bans tenant jti := by
  simp [contains, Filed, h.tenants, h.jtis]

end StaticDenylist

/-- The sets never fail: a member is there exactly when it was there before or was just added; a
fresh store is empty. -/
structure RedisClient.Lawful {σ : Type} (client : RedisClient σ) (fresh : σ) : Prop where
  sAdd_ok : ∀ s k m, ∃ s', client.sAdd s k m = .ok s' ∧
    ∀ k' m', ∃ b, client.sIsMember s k' m' = .ok b ∧ client.sIsMember s' k' m' = .ok (b || (k' = k && m' = m))
  fresh_empty : ∀ k m, client.sIsMember fresh k m = .ok false

theorem RedisClient.Lawful.answers {σ : Type} {client : RedisClient σ} {fresh : σ}
    (hc : client.Lawful fresh) (store : σ) (k m : Bytes) :
    ∃ store', client.sAdd store k m = .ok store' ∧ ∀ (k' m' : Bytes) (P : Prop),
      (∃ b, client.sIsMember store k' m' = .ok b ∧ (b = true ↔ P)) →
      ∃ b, client.sIsMember store' k' m' = .ok b ∧ (b = true ↔ P ∨ (k' = k ∧ m' = m)) := by
  obtain ⟨store', hs, hm⟩ := hc.sAdd_ok store k m
  refine ⟨store', hs, ?_⟩
  rintro k' m' P ⟨c, hbef, hP⟩
  obtain ⟨b, hb, haft⟩ := hm k' m'
  have hcb : c = b := by
    rw [hb] at hbef
    cases hbef
    rfl
  refine ⟨_, haft, ?_⟩
  rw [← hcb]
  simp [hP]

namespace RedisDenylist
variable {σ : Type} {client : RedisClient σ} {fresh : σ}

structure Holds (client : RedisClient σ) (store : σ) (bans : List Ban) : Prop where
  tenants : ∀ t, ∃ b, client.sIsMember store keyTenants t = .ok b ∧ (b = true ↔ .tenant t ∈ bans)
  jtis : ∀ k, ∃ b, client.sIsMember store keyJTIs k = .ok b ∧ (b = true ↔ ∃ t j, .token t j ∈ bans ∧ jtiKey t j = k)
  nonempty : NonemptyTokens bans

theorem keys_ne : keyTenants ≠ keyJTIs := by decide

variable {store : σ} {bans : List Ban}

section
variable (hc : client.Lawful fresh)
include hc

section
variable (h : Holds client store bans)
include h

theorem holds_addTenant (tenant : Bytes) :
    ∃ store', client.sAdd store keyTenants tenant = .ok store' ∧ Holds client store' (bans ++ [.tenant tenant]) := by
  obtain ⟨store', hs, hanss⟩ := hc.answers store keyTenants tenant
  refine ⟨store', hs, ?_, ?_, ?_⟩
  · intro t
    simpa using hanss keyTenants t _ (h.tenants t)
  · intro k
    simpa [keys_ne.symm] using hanss keyJTIs k _ (h.jtis k)
  · exact h.nonempty.tenant

theorem holds_addJTI (tenant jti : Bytes) (hj : jti ≠ []) :
    ∃ store', client.sAdd store keyJTIs (jtiKey tenant jti) = .ok store' ∧
      Holds client store' (bans ++ [.token tenant jti]) := by
  obtain ⟨store', hs, hanss⟩ := hc.answers store keyJTIs (jtiKey tenant jti)
  refine ⟨store', hs, ?_, ?_, ?_⟩
  · intro t
    simpa [keys_ne] using hanss keyTenants t _ (h.tenants t)
  · intro k
    obtain ⟨b, hb, hmem⟩ := hanss keyJTIs k _ (h.jtis k)
    refine ⟨b, hb, ?_⟩
    rw [hmem, ← filed_concat]
    simp
  · exact h.nonempty.token hj

theorem holds_apply (op : RedisOp) :
    Holds client (apply client store op) (bans ++ op.bans) := by
  cases op with
  | addTenant tenant =>
    by_cases ht : tenant = []
    · simpa [apply, addTenant, RedisOp.bans, tenantBan, ht] using h
    · obtain ⟨store', hs, hstore⟩ := holds_addTenant hc h tenant
      simpa [apply, addTenant, RedisOp.bans, tenantBan, ht, hs] using hstore
  | addJTI tenant jti =>
    by_cases ht : tenant = [] ∨ jti = []
    · simpa [apply, addJTI, RedisOp.bans, tokenBan, ht] using h
    have hj : jti ≠ [] := fun h => ht (.inr h)
    obtain ⟨store', hs, hstore⟩ := holds_addJTI hc h tenant jti hj
    simpa [apply, addJTI, RedisOp.bans, tokenBan, ht, hs] using hstore

end

theorem holds_run (ops : List RedisOp) (h : Holds client store bans) :
    Holds client (run (apply client) store ops) (bans ++ ops.flatMap RedisOp.bans) := by
  induction ops generalizing store bans with
  | nil => simpa using h
  | cons op ops ih =>
    have := ih (holds_apply hc h op)
    rwa [append_assoc, ← flatMap_cons] at this

theorem holds_fresh : Holds client fresh [] :=
  ⟨fun t => ⟨false, hc.fresh_empty _ _, by simp⟩, fun k => ⟨false, hc.fresh_empty _ _, by simp⟩,
    by simp [NonemptyTokens]⟩

end

theorem contains_filed (h : Holds client store bans) (tenant jti : Bytes) :
    ∃ b, contains client store tenant jti = .ok b ∧ (b = true ↔ Filed bans tenant jti) := by
  obtain ⟨b, hb, hten⟩ := h.tenants tenant
  cases b with
  | true => exact ⟨true, by simp [contains, hb], by simp [Filed, hten.mp]⟩
  | false =>
    have hn : .tenant tenant ∉ bans := fun h => by simpa using hten.mpr h
    by_cases hj : jti = []
    · exact ⟨false, by simp [contains, hb, hj], by simp [Filed, hn, hj]⟩
    · obtain ⟨c, hc, hjti⟩ := h.jtis (jtiKey tenant jti)
      exact ⟨c, by simp [contains, hb, hj, hc], by simp [Filed, hn, hj, hjti]⟩

end RedisDenylist

/-- Revocation is precise for a lookup exactly when no foreign ban is filed under its
key, in both backends and after any operations. -/
theorem denylist_precise_iff {σ : Type} (client : RedisClient σ) (fresh : σ) (hc : client.Lawful fresh)
    (ops : List DenyOp) (redisOps : List RedisOp) (tenant jti : Bytes) :
    (((run StaticDenylist.apply newStaticDenylist ops).contains tenant jti = true ↔
        Banned (ops.flatMap DenyOp.bans) tenant jti) ↔
      Unaliased (ops.flatMap DenyOp.bans) tenant jti) ∧
    ∃ b, RedisDenylist.contains client (run (RedisDenylist.apply client) fresh redisOps)
        tenant jti = .ok b ∧
      ((b = true ↔ Banned (redisOps.flatMap RedisOp.bans) tenant jti) ↔
        Unaliased (redisOps.flatMap RedisOp.bans) tenant jti) := by
  have hstatic := StaticDenylist.holds_run ops StaticDenylist.holds_new
  have hredis := RedisDenylist.holds_run hc redisOps (RedisDenylist.holds_fresh hc)
  obtain ⟨b, hb, hfiled⟩ := RedisDenylist.contains_filed hredis tenant jti
  refine ⟨?_, b, hb, ?_⟩
  · rw [StaticDenylist.contains_iff_filed hstatic]
    exact filed_precise_iff _ hstatic.nonempty tenant jti
  · rw [hfiled]
    exact filed_precise_iff _ hredis.nonempty tenant jti

def listRedis : RedisClient (List (Bytes × Bytes)) where
  sAdd store key member := .ok ((key, member) :: store)
  sIsMember store key member := .ok (store.contains (key, member))

theorem listRedis_lawful : listRedis.Lawful [] := by
  refine ⟨?_, ?_⟩
  · intro s k m
    refine ⟨(k, m) :: s, rfl, ?_⟩
    intro k' m'
    simp [listRedis, Bool.or_comm]
  · intro k m
    rfl

theorem denylist_precise_one_token :
    let ops := [DenyOp.addJTI (ascii "acme") (ascii "t1")]
    ((run StaticDenylist.apply newStaticDenylist ops).contains (ascii "acme") (ascii "t1") =
      true ↔ Banned (ops.flatMap DenyOp.bans) (ascii "acme") (ascii "t1")) := by
  intro ops
  have h := denylist_precise_iff listRedis [] listRedis_lawful ops [] (ascii "acme") (ascii "t1")
  apply h.1.mpr
  refine .inr (.inr ?_)
  intro t j _ _
  decide

theorem denylist_refuses_foreign_token :
    let ops := [DenyOp.addJTI (ascii "acme") (ascii "eu:42")]
    (run StaticDenylist.apply newStaticDenylist ops).contains (ascii "acme:eu")
        (ascii "42") = true ∧
      ¬ Banned (ops.flatMap DenyOp.bans) (ascii "acme:eu") (ascii "42") := by
  unfold Banned
  decide

end Chromeless.Signaling
