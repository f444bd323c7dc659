import Chromeless.LibCount
import Chromeless.SignalingInvariant
import Chromeless.SignalingMetrics

/-! The labels of tenants are stable and few, and the gauges are exact, whatever the schedule. -/
namespace Chromeless.Signaling
open Function Json Count Metrics Pc Prod
open Record (before underHub)

namespace Metrics
variable {M M' : Metrics} {t : Bytes}

structure FirstCome (M : Metrics) : Prop where
  cap : M.seenTenants.card ≤ tenantLabelCap
  given : ∀ t l, (t, l) ∈ M.labels →
    l = t ∧ (t = anonymousTenant ∨ t ∈ M.seenTenants) ∨
    l = tenantOverflow ∧ ¬ (t = anonymousTenant ∨ t ∈ M.seenTenants) ∧ tenantLabelCap ≤ M.seenTenants.card

theorem firstCome_new : new.FirstCome := ⟨by simp [new], by simp [new]⟩

variable {l l' : Bytes} {next : Labelling}

theorem FirstCome.stable (h : M.FirstCome) (hl : (t, l) ∈ M.labels) (hl' : (t, l') ∈ M.labels) :
    l = l' := by
  rcases h.given t l hl with ⟨rfl, hseen⟩ | ⟨rfl, huns, -⟩
  · rcases h.given l l' hl' with ⟨rfl, -⟩ | ⟨-, huns, -⟩
    · rfl
    · exact absurd hseen huns
  rcases h.given t l' hl' with ⟨-, hseen⟩ | ⟨rfl, -, -⟩
  · exact absurd hseen huns
  · rfl

theorem FirstCome.label_iff (h : M.FirstCome) (hl : (t, l) ∈ M.labels) :
    (t, l') ∈ M.labels ↔ l' = l :=
  ⟨fun hl' => h.stable hl' hl, fun heq => heq ▸ hl⟩

open List

theorem FirstCome.bounded (h : M.FirstCome) :
    (M.labels.map snd).toFinset.card ≤ tenantLabelCap + 2 := by
  have hsub : (M.labels.map snd).toFinset ⊆
      insert anonymousTenant (insert tenantOverflow M.seenTenants) := by
    intro l hl
    rw [mem_toFinset, mem_map] at hl
    obtain ⟨⟨t, _⟩, hmem, rfl⟩ := hl
    rcases h.given t _ hmem with ⟨rfl, rfl | hseen⟩ | ⟨rfl, -, -⟩ <;> simp [*]
  calc (M.labels.map snd).toFinset.card
      ≤ (insert anonymousTenant (insert tenantOverflow M.seenTenants)).card := Finset.card_le_card hsub
    _ ≤ (insert tenantOverflow M.seenTenants).card + 1 := Finset.card_insert_le _ _
    _ ≤ (M.seenTenants.card + 1) + 1 := by
        have hle := Finset.card_insert_le tenantOverflow M.seenTenants
        omega
    _ ≤ tenantLabelCap + 2 := by
        have hcap := h.cap
        omega

structure Stretch (t : Bytes) (M M' : Metrics) (next : Labelling) : Prop where
  firstCome : M'.FirstCome
  sessions : M'.activeSessions = M.activeSessions
  connections : M'.activeConnections = M.activeConnections
  mono : ∀ p ∈ M.labels, p ∈ M'.labels
  given : ∀ l, next = .labelled l → (t, l) ∈ M'.labels

section
variable (h : M.FirstCome)
include h

theorem FirstCome.wait (hnext : ∀ l, next ≠ .labelled l) : Stretch t M M next :=
  ⟨h, rfl, rfl, fun _ hp => hp, fun l hl => absurd hl (hnext l)⟩

theorem FirstCome.produce (hl : l = t ∧ (t = anonymousTenant ∨ t ∈ M.seenTenants) ∨
      l = tenantOverflow ∧ ¬ (t = anonymousTenant ∨ t ∈ M.seenTenants) ∧ tenantLabelCap ≤ M.seenTenants.card) :
    Stretch t M (M.produce t l).1 (M.produce t l).2 := by
  refine ⟨⟨h.cap, ?_⟩, rfl, rfl, ?_, ?_⟩
  · intro t' l' hmem
    rcases mem_append.mp hmem with hmem | hmem
    · exact h.given t' l' hmem
    · obtain ⟨rfl, rfl⟩ := Prod.mk.inj (mem_singleton.mp hmem)
      exact hl
  · exact fun p hp => mem_append_left _ hp
  · intro l' hl'
    obtain rfl := Labelling.labelled.inj hl'
    exact mem_append_right _ (mem_singleton.mpr rfl)

theorem FirstCome.insert (hroom : ¬ tenantLabelCap ≤ M.seenTenants.card) :
    FirstCome { M with seenTenants := insert t M.seenTenants } := by
  refine ⟨?_, ?_⟩
  · have hle := Finset.card_insert_le t M.seenTenants
    show (Insert.insert t M.seenTenants).card ≤ tenantLabelCap
    omega
  intro t' l hmem
  rcases h.given t' l hmem with ⟨rfl, hseen⟩ | ⟨-, -, hfull⟩
  · exact .inl ⟨rfl, hseen.imp_right Finset.mem_insert_of_mem⟩
  · exact absurd hfull hroom

theorem FirstCome.enter (t : Bytes) :
    Stretch t M (M.enter t).1 (M.enter t).2 := by
  unfold Metrics.enter
  split
  next hanon => exact h.produce (.inl ⟨rfl, .inl hanon⟩)
  · exact h.wait (by simp)

theorem FirstCome.label (hanon : t = anonymousTenant → ∃ l, next = .labelled l)
    (hgv : ∀ l, next = .labelled l → (t, l) ∈ M.labels) :
    Stretch t M (M.label t next).1 (M.label t next).2 := by
  cases next with
  | rlock =>
    simp only [label]
    split
    next hseen => exact h.produce (.inl ⟨rfl, .inr hseen⟩)
    · exact h.wait (by simp)
  | lock =>
    have hnam : t ≠ anonymousTenant := fun heq => by simpa using hanon heq
    simp only [label]
    split
    next hseen => exact h.produce (.inl ⟨rfl, .inr hseen⟩)
    rename_i huns
    split
    -- turned away: from here on the table stays full, and so does the tenant's label
    next hfull => exact h.produce (.inr ⟨rfl, by simp [hnam, huns], hfull⟩)
    next hroom =>
      have hmore : FirstCome { M with seenTenants := Insert.insert t M.seenTenants } := h.insert hroom
      have hstr := hmore.produce (t := t) (l := t) (.inl ⟨rfl, .inr (by simp)⟩)
      exact ⟨hstr.firstCome, rfl, rfl, hstr.mono, hstr.given⟩
  | labelled => exact ⟨h, rfl, rfl, fun _ hp => hp, hgv⟩

end

theorem Stretch.label_iff (h : Stretch t M M' next) {t' : Bytes} (hknown : ∃ l, (t', l) ∈ M.labels) :
    (t', l) ∈ M'.labels ↔ (t', l) ∈ M.labels := by
  obtain ⟨l₀, hl₀⟩ := hknown
  refine ⟨?_, h.mono _⟩
  intro hl
  rwa [h.firstCome.stable hl (h.mono _ hl₀)]

end Metrics

def Pc.metering : Pc → Bool
  | .recordRegistered _ | .recordUnregistered => true
  | _ => false

namespace Broker
variable {cfg : Config} {b b' : Broker} {a : Act}

theorem counted_stage {pc : Pc} (h : pc.counted = true) : pc.stage ≠ .fresh := by
  cases pc with
  | forward site | send site => cases site <;> simp [stage, Site.stage]
  | _ => simp [counted, stage] at h ⊢

theorem forwardFirst_counted (first : Option Frame) : (forwardFirst first).counted = true := by
  cases first <;> rfl

theorem handle_counted (f : Frame) : (handle f).counted = true := by
  unfold handle
  split <;> rfl

theorem afterForward_counted (site : Site) (typ : EnvType) :
    (afterForward site typ).counted = true := by
  fun_cases afterForward <;> rfl

theorem LocalMove.counted {p q : Conn} (h : LocalMove b p q) (hp : p.pc.metering = false) :
    q.pc.counted = p.pc.counted := by
  cases h with
  | recordRegistered hpc | recordUnregistered hpc => simp [hpc, metering] at hp
  | peerPresent hpc =>
    rw [hpc]
    exact forwardFirst_counted _
  | _ hpc => simp [hpc, Pc.counted]

theorem Move.counted (hm : Move cfg b a b')
    (hpc : ∀ c now, a = .go c now → (b.conns c).pc.metering = false) (d : ConnId) :
    (b'.conns d).pc.counted = (b.conns d).pc.counted := by
  cases hm with
  | localStep hl =>
    rename_i c now p
    rw [setConn_conns, update_apply]
    split
    next hd =>
      rw [hd]
      exact hl.counted (hpc c now rfl)
    · rfl
  | shutdown => rfl
  | _ =>
    simp only [goto_eq, markTarget_eq, setConn_conns, setSess_conns, note_conns, update_apply, apply_ite Conn.pc]
    grind -ring -linarith [counted, Conn.new, forwardFirst_counted, handle_counted, afterForward_counted]

theorem Move.metering (hm : Move cfg b a b') (hpc : ∀ c now, a = .go c now → (b.conns c).pc.metering = false)
    {d : ConnId} (hd : (b.conns d).pc.metering = true) : (b'.conns d).pc = (b.conns d).pc := by
  cases hm with
  | localStep hl =>
    rename_i c now p
    rw [setConn_conns, update_of_ne]
    rintro rfl
    simp [hpc d now rfl] at hd
  | shutdown => rfl
  | _ =>
    simp only [goto_eq, markTarget_eq, setConn_conns, setSess_conns, note_conns, update_apply, apply_ite Conn.pc]
    grind -ring -linarith [metering]

end Broker

structure Gauged (entry : SessionKey → Bool) (conns : ConnId → Conn) (M : Metrics) : Prop where
  firstCome : M.FirstCome
  knownSession : ∀ k, entry k = true → ∃ l, (k.tenant, l) ∈ M.labels
  knownConn : ∀ d, (conns d).pc.counted = true → ∃ l, ((conns d).key.tenant, l) ∈ M.labels
  sessions : ∀ l, Counts (fun k => entry k = true ∧ (k.tenant, l) ∈ M.labels) (M.activeSessions l)
  connections : ∀ x, Counts (fun d => (conns d).pc.counted = true ∧ (conns d).role = x.1 ∧
    ((conns d).key.tenant, x.2) ∈ M.labels) (M.activeConnections x)

namespace Gauged
variable {entry : SessionKey → Bool} {conns conns' : ConnId → Conn} {M M' : Metrics}

theorem stretch (h : Gauged entry conns M) {t : Bytes} {next : Labelling}
    (hs : Metrics.Stretch t M M' next) : Gauged entry conns M' := by
  -- everything that counts has a label already, and labels do not change
  refine ⟨hs.firstCome, ?_, ?_, ?_, ?_⟩
  · intro k hk
    obtain ⟨l, hl⟩ := h.knownSession k hk
    exact ⟨l, hs.mono _ hl⟩
  · intro d hd
    obtain ⟨l, hl⟩ := h.knownConn d hd
    exact ⟨l, hs.mono _ hl⟩
  · intro l
    rw [hs.sessions]
    refine (h.sessions l).congr fun k => ?_
    exact and_congr_right fun hk => hs.label_iff (h.knownSession k hk)
  · intro x
    rw [hs.connections]
    refine (h.connections x).congr fun d => ?_
    exact and_congr_right fun hd => and_congr_right fun _ => hs.label_iff (h.knownConn d hd)

theorem moved (h : Gauged entry conns M) (hcnt : ∀ d, (conns' d).pc.counted = (conns d).pc.counted)
    (hsame : ∀ d, (conns d).pc.counted = true → (conns' d).role = (conns d).role ∧ (conns' d).key = (conns d).key) :
    Gauged entry conns' M := by
  refine ⟨h.firstCome, h.knownSession, ?_, h.sessions, ?_⟩
  · intro d hd
    rw [hcnt] at hd
    rw [(hsame d hd).2]
    exact h.knownConn d hd
  · intro x
    refine (h.connections x).congr fun d => ?_
    rw [hcnt]
    refine and_congr_right fun hd => ?_
    rw [(hsame d hd).1, (hsame d hd).2]

variable {k : SessionKey} {l : Bytes} {c : ConnId} {p : Conn}

section
variable (h : Gauged entry conns M)
include h

theorem created (hk : entry k = false) (hl : (k.tenant, l) ∈ M.labels) :
    Gauged (update entry k true) conns (M.count l (.sessionCreated k)) := by
  refine ⟨⟨h.firstCome.cap, h.firstCome.given⟩, ?_, h.knownConn, ?_, h.connections⟩
  · exact (forall_update_iff entry (p := fun k x => x = true → ∃ l, (k.tenant, l) ∈ M.labels)).mpr
      ⟨fun _ => ⟨l, hl⟩, fun k' _ => h.knownSession k'⟩
  -- the session joins the count of its tenant's label and of no other
  · refine counts_insert_at h.sessions (a := k) (by simp [hk]) fun l' k' => ?_
    by_cases heq : k' = k
    · subst heq
      simp [hk, count, h.firstCome.label_iff hl]
    · simp [heq, count]

theorem dropped (hk : entry k = true) (hl : (k.tenant, l) ∈ M.labels) :
    Gauged (update entry k false) conns (M.count l (.sessionDropped k)) := by
  refine ⟨⟨h.firstCome.cap, h.firstCome.given⟩, ?_, h.knownConn, ?_, h.connections⟩
  · exact (forall_update_iff entry (p := fun k x => x = true → ∃ l, (k.tenant, l) ∈ M.labels)).mpr
      ⟨nofun, fun k' _ => h.knownSession k'⟩
  · refine counts_erase_at h.sessions (a := k) ⟨hk, hl⟩ fun l' k' => ?_
    by_cases heq : k' = k
    · subst heq
      simp [hk, h.firstCome.label_iff hl]
    · simp [heq, count]

theorem registered (hc : (conns c).pc.counted = false)
    (hp : p.pc.counted = true) (hl : (p.key.tenant, l) ∈ M.labels) :
    Gauged entry (update conns c p) (M.count l (.peerRegistered p.role p.key.tenant)) := by
  refine ⟨⟨h.firstCome.cap, h.firstCome.given⟩, h.knownSession, ?_, h.sessions, ?_⟩
  · exact (forall_update_iff conns (p := fun _ q => q.pc.counted = true → ∃ l, (q.key.tenant, l) ∈ M.labels)).mpr
      ⟨fun _ => ⟨l, hl⟩, fun d _ => h.knownConn d⟩
  · refine counts_insert_at h.connections (a := c) (by simp [hc]) fun x d => ?_
    by_cases heq : d = c
    · subst heq
      simp [hc, hp, count, h.firstCome.label_iff hl, Prod.ext_iff, eq_comm]
    · simp [heq, count]

theorem unregistered (hc : (conns c).pc.counted = true)
    (hp : p.pc.counted = false) (hl : ((conns c).key.tenant, l) ∈ M.labels) :
    Gauged entry (update conns c p) (M.count l (.peerUnregistered (conns c).role (conns c).key.tenant)) := by
  refine ⟨⟨h.firstCome.cap, h.firstCome.given⟩, h.knownSession, ?_, h.sessions, ?_⟩
  · exact (forall_update_iff conns (p := fun _ q => q.pc.counted = true → ∃ l, (q.key.tenant, l) ∈ M.labels)).mpr
      ⟨by simp [hp], fun d _ => h.knownConn d⟩
  · refine counts_erase_at h.connections (a := c) ⟨hc, rfl, hl⟩ fun x d => ?_
    by_cases heq : d = c
    · subst heq
      simp only [update_self, hp, Bool.false_eq_true, false_and, false_iff]
      rintro ⟨⟨-, hrole, hlabel⟩, hoth⟩
      exact hoth ⟨trivial, Prod.ext hrole.symm ((h.firstCome.label_iff hl).mp hlabel)⟩
    · simp [heq, count]

end

end Gauged

def Pc.usesHub : Pc → Bool
  | .getOrCreate _ | .rejected | .dropIfEmpty => true
  | _ => false

namespace Broker
variable {cfg : Config} {b b' : Broker} {a : Act}

theorem Move.sessions (hm : Move cfg b a b')
    (hpc : ∀ c now, a = .go c now → (b.conns c).pc.usesHub = false) : b'.sessions = b.sessions := by
  cases hm with
  | found h | create h =>
    have hhub := hpc _ _ rfl
    simp [h, usesHub] at hhub
  | reap h | keep h =>
    have hhub := hpc _ _ rfl
    rcases h with h | h <;> simp [h, usesHub] at hhub
  | forward | send => simp
  | _ => rfl

variable {c : ConnId} {first : Option Frame} {now : Time}

theorem Move.of_getOrCreate (now : Time) (hpc : (b.conns c).pc = .getOrCreate first) :
    Move cfg b (.go c now) (step cfg b (.go c now)) := by
  have hstep : step cfg b (.go c now) = b.getOrCreate c first := by
    simp [step, advance, Broker.localStep, hpc, sharedStep]
  rw [hstep]
  unfold getOrCreate
  dsimp only
  split
  next g hg => exact .found hpc hg
  next hg => exact .create hpc hg

theorem Move.of_dropIfEmpty (now : Time) (hpc : (b.conns c).pc = .rejected ∨ (b.conns c).pc = .dropIfEmpty) :
    Move cfg b (.go c now) (step cfg b (.go c now)) := by
  have hstep : step cfg b (.go c now) = (b.dropIfEmpty (b.conns c).key).goto c .done := by
    rcases hpc with h | h <;> simp [step, advance, Broker.localStep, h, sharedStep]
  rw [hstep]
  rcases dropIfEmpty_cases b (b.conns c).key with hk | ⟨g, hg, hemp, heq⟩
  · rw [hk]
    exact .keep hpc hk
  · rw [heq]
    exact .reap hpc hg hemp

theorem Move.sessions_getOrCreate (hm : Move cfg b (.go c now) b') (hpc : (b.conns c).pc = .getOrCreate first) :
    b.sessions (b.conns c).key ≠ none ∧ b'.sessions = b.sessions ∨
      b.sessions (b.conns c).key = none ∧ ∃ g, b'.sessions = update b.sessions (b.conns c).key (some g) := by
  cases hm with
  | found h hg => exact .inl ⟨by simp [hg], rfl⟩
  | create h hg => exact .inr ⟨hg, _, rfl⟩
  | localStep hl => cases hl <;> simp_all
  | _ => simp_all

theorem Move.sessions_dropIfEmpty (hm : Move cfg b (.go c now) b')
    (hpc : (b.conns c).pc = .rejected ∨ (b.conns c).pc = .dropIfEmpty) :
    b'.sessions = b.sessions ∨ b.sessions (b.conns c).key ≠ none ∧
      b'.sessions = update b.sessions (b.conns c).key none := by
  cases hm with
  | keep => exact .inl rfl
  | reap h hg => exact .inr ⟨by simp [hg], rfl⟩
  | localStep => exact .inl rfl
  | _ => rcases hpc with h | h <;> simp_all

end Broker

namespace Metered
variable {cfg : Config} {m : Metered} {c : ConnId} {a : Act} {b : Broker}

def Place (m : Metered) (c : ConnId) : Record → Prop
  | .sessionCreated key => m.hub = some c ∧ (m.broker.sessions key).isSome = true
  | .sessionDropped key => m.hub = some c ∧ (m.broker.sessions key).isSome = false
  | .peerRegistered role tenant => (∃ first, (m.broker.conns c).pc = .recordRegistered first) ∧
      (m.broker.conns c).role = role ∧ (m.broker.conns c).key.tenant = tenant
  | .peerUnregistered role tenant => (m.broker.conns c).pc = .recordUnregistered ∧
      (m.broker.conns c).role = role ∧ (m.broker.conns c).key.tenant = tenant

structure Pending (m : Metered) (c : ConnId) (f : Call) : Prop where
  named : f.record.tenant = anonymousTenant → ∃ l, f.next = .labelled l
  given : ∀ l, f.next = .labelled l → (f.record.tenant, l) ∈ m.metrics.labels
  place : m.Place c f.record

structure Sound (m : Metered) : Prop where
  gauged : Gauged m.entry m.broker.conns m.metrics
  holder : ∀ c, m.hub = some c → ∃ f, m.calls c = some f ∧ f.record.underHub = true
  pending : ∀ c f, m.calls c = some f → m.Pending c f

theorem sound_new : new.Sound := by
  refine ⟨⟨Metrics.firstCome_new, ?_, ?_, ?_, ?_⟩, by simp [new], by simp [new]⟩
  · simp [new, entry, Broker.new]
  · simp [new, Broker.new, Conn.unused, counted]
  · exact fun l => counts_none (by simp [new, Metrics.new])
  · exact fun x => counts_none (by simp [new, Metrics.new])

theorem entry_free (hhub : m.hub = none) (k : SessionKey) :
    m.entry k = (m.broker.sessions k).isSome := by
  simp [entry, hhub]

variable {f : Call} {r : Record} {l : Bytes}

theorem entry_held (hhub : m.hub = some c) (hf : m.calls c = some f) (k : SessionKey) :
    m.entry k = f.record.before k (m.broker.sessions k).isSome := by
  simp [entry, hhub, hf]

theorem Place.holds (h : m.Place c r) (hr : r.underHub = true) : m.hub = some c := by
  cases r with
  | sessionCreated | sessionDropped => exact h.1
  | peerRegistered | peerUnregistered => simp [underHub] at hr

theorem Sound.conns_moved (h : m.Sound) (hm : Broker.Move cfg m.broker a b)
    (hpc : ∀ c now, a = .go c now → (m.broker.conns c).pc.metering = false) :
    Gauged m.entry b.conns m.metrics := by
  refine h.gauged.moved (hm.counted hpc) ?_
  intro d hd
  obtain ⟨hrole, href⟩ := hm.identity d (Broker.counted_stage hd)
  exact ⟨hrole, congrArg SessRef.key href⟩

theorem Place.moved {m' : Metered} (h : m.Place c r) (hr : r.underHub = false)
    (hm : Broker.Move cfg m.broker a m'.broker)
    (hpc : ∀ c now, a = .go c now → (m.broker.conns c).pc.metering = false) : m'.Place c r := by
  have hsame : (m.broker.conns c).pc.metering = true →
      (m'.broker.conns c).pc = (m.broker.conns c).pc ∧
        (m'.broker.conns c).role = (m.broker.conns c).role ∧
        (m'.broker.conns c).key = (m.broker.conns c).key := by
    intro hrec
    have hstg : (m.broker.conns c).pc.stage ≠ .fresh := by
      cases hs : (m.broker.conns c).pc <;> simp [hs, metering, stage] at hrec ⊢
    obtain ⟨hrole, href⟩ := hm.identity c hstg
    exact ⟨hm.metering hpc hrec, hrole, congrArg SessRef.key href⟩
  cases r with
  | sessionCreated | sessionDropped => simp [underHub] at hr
  | peerRegistered =>
    obtain ⟨⟨first, hat⟩, hrole, hten⟩ := h
    obtain ⟨hpc', hrole', hkey'⟩ := hsame (by rw [hat]; rfl)
    exact ⟨⟨first, hpc'.trans hat⟩, hrole'.trans hrole, by rw [hkey', hten]⟩
  | peerUnregistered =>
    obtain ⟨hat, hrole, hten⟩ := h
    obtain ⟨hpc', hrole', hkey'⟩ := hsame (by rw [hat]; rfl)
    exact ⟨hpc'.trans hat, hrole'.trans hrole, by rw [hkey', hten]⟩

theorem Sound.moved (h : m.Sound) (hm : Broker.Move cfg m.broker a b)
    (hpc : ∀ c now, a = .go c now → (m.broker.conns c).pc.metering = false)
    (hsess : b.sessions = m.broker.sessions) : Sound { m with broker := b } := by
  have hent : entry { m with broker := b } = m.entry := by
    funext k
    simp [entry, hsess]
  refine ⟨?_, h.holder, ?_⟩
  · rw [hent]
    exact h.conns_moved hm hpc
  intro d f hf
  obtain ⟨hnam, hgv, hplc⟩ := h.pending d f hf
  refine ⟨hnam, hgv, ?_⟩
  cases hr : f.record.underHub with
  | false => exact hplc.moved hr hm hpc
  | true =>
    cases hrec : f.record with
    | sessionCreated key | sessionDropped key =>
      rw [hrec] at hplc
      exact ⟨hplc.1, by rw [← hplc.2]; simp only [hsess]⟩
    | peerRegistered | peerUnregistered => simp [hrec, underHub] at hr

theorem enter_named (M : Metrics) {t : Bytes} (ht : t = anonymousTenant) :
    ∃ l, (M.enter t).2 = .labelled l := by
  simp [enter, ht, produce]

section
variable (h : m.Sound)
include h

theorem Sound.call_hub (hfree : m.hub = none) (hm : Broker.Move cfg m.broker a b)
    (hpc : ∀ c now, a = .go c now → (m.broker.conns c).pc.metering = false) (hr : r.underHub = true)
    (hplc : Place ({ m with broker := b }.call c r) c r)
    (hbef : ∀ k, r.before k (b.sessions k).isSome = (m.broker.sessions k).isSome) :
    Sound ({ m with broker := b }.call c r) := by
  have hstr := h.gauged.firstCome.enter r.tenant
  have hhub : ({ m with broker := b }.call c r).hub = some c := by simp [call, hr]
  have hcall : ({ m with broker := b }.call c r).calls c =
      some ⟨r, (m.metrics.enter r.tenant).2⟩ := by
    simp [call]
  -- to everybody else the hub is what it was, until the mutex is released
  have hent : ({ m with broker := b }.call c r).entry = m.entry := by
    funext k
    rw [entry_held hhub hcall, entry_free hfree]
    exact hbef k
  refine ⟨?_, ?_, ?_⟩
  · rw [hent]
    exact (h.conns_moved hm hpc).stretch hstr
  · intro d hd
    obtain rfl := Option.some.inj (hhub.symm.trans hd)
    exact ⟨_, hcall, hr⟩
  · intro d f hf
    by_cases hd : d = c
    · subst hd
      obtain rfl := Option.some.inj (hcall.symm.trans hf)
      exact ⟨enter_named _, hstr.given, hplc⟩
    -- the mutex was free, so whoever else is recording records a peer
    · have hold : m.calls d = some f := by simpa [call, hd] using hf
      obtain ⟨hnam, hgv, hat⟩ := h.pending d f hold
      have hpeer : f.record.underHub = false := by
        cases hunder : f.record.underHub with
        | false => rfl
        | true => simp [hat.holds hunder] at hfree
      exact ⟨hnam, fun l hl => hstr.mono _ (hgv l hl), hat.moved hpeer hm hpc⟩

theorem Sound.relabel {M : Metrics} (hstr : Metrics.Stretch f.record.tenant m.metrics M f.next)
    (hsame : ∀ g, m.calls c = some g → g.record = f.record)
    (hnam : f.record.tenant = anonymousTenant → ∃ l, f.next = .labelled l) (hplc : m.Place c f.record) :
    Sound { m with metrics := M, calls := update m.calls c (some f) } := by
  have hrec : ∀ d g, m.calls d = some g → ∃ g', update m.calls c (some f) d = some g' ∧ g'.record = g.record := by
    intro d g hg
    by_cases hd : d = c
    · subst hd
      exact ⟨f, by simp, (hsame g hg).symm⟩
    · exact ⟨g, by simp [hd, hg], rfl⟩
  have hent :
      entry { m with metrics := M, calls := update m.calls c (some f) } = m.entry := by
    funext k
    cases hhub : m.hub with
    | none => simp [entry, hhub]
    | some d =>
      obtain ⟨g, hg, -⟩ := h.holder d hhub
      obtain ⟨g', hg', heq⟩ := hrec d g hg
      simp [entry, hhub, hg, hg', heq]
  refine ⟨?_, ?_, ?_⟩
  · rw [hent]
    exact h.gauged.stretch hstr
  · intro d hhub
    obtain ⟨g, hg, hunder⟩ := h.holder d hhub
    obtain ⟨g', hg', heq⟩ := hrec d g hg
    exact ⟨g', hg', by rw [heq, hunder]⟩
  · intro d g hg
    by_cases hd : d = c
    · subst hd
      obtain rfl : f = g := by simpa using hg
      exact ⟨hnam, hstr.given, hplc⟩
    have hold : m.calls d = some g := by simpa [hd] using hg
    obtain ⟨hnam', hgv, hat⟩ := h.pending d g hold
    exact ⟨hnam', fun l hl => hstr.mono _ (hgv l hl), hat⟩

/-- The calls that are left when `c` is done. -/
theorem Sound.unfinished {d : ConnId} (hf : update m.calls c none d = some f) (l : Bytes) (r : Record) :
    d ≠ c ∧ (f.record.tenant = anonymousTenant → ∃ l, f.next = .labelled l) ∧
      (∀ l', f.next = .labelled l' → (f.record.tenant, l') ∈ (m.metrics.count l r).labels) ∧
      m.Place d f.record := by
  have hd : d ≠ c := by
    rintro rfl
    simp at hf
  obtain ⟨hnam, hgv, hat⟩ := h.pending d f (by simpa [hd] using hf)
  exact ⟨hd, hnam, by cases r <;> exact hgv, hat⟩

theorem Sound.finish_hub (hr : r.underHub = true) (hf : m.calls c = some ⟨r, .labelled l⟩) :
    Sound { m with
      metrics := m.metrics.count l r, calls := update m.calls c none, hub := none } := by
  obtain ⟨-, hgv, hplc⟩ := h.pending c _ hf
  have hlabel : (r.tenant, l) ∈ m.metrics.labels := hgv l rfl
  have hhub : m.hub = some c := hplc.holds hr
  have hold := entry_held hhub hf
  refine ⟨?_, by simp, ?_⟩
  · cases r with
    | sessionCreated key =>
      have haft : (fun k => (m.broker.sessions k).isSome) = update m.entry key true :=
        eq_update_iff.mpr ⟨hplc.2, fun k hk => by simp [hk, hold, before]⟩
      have hdone := h.gauged.created (by simp [hold, before]) hlabel
      rwa [← haft] at hdone
    | sessionDropped key =>
      have haft : (fun k => (m.broker.sessions k).isSome) = update m.entry key false :=
        eq_update_iff.mpr ⟨hplc.2, fun k hk => by simp [hk, hold, before]⟩
      have hdone := h.gauged.dropped (by simp [hold, before]) hlabel
      rwa [← haft] at hdone
    | peerRegistered | peerUnregistered => simp [underHub] at hr
  · intro d g hg
    obtain ⟨hd, hnam, hgv', hat⟩ := h.unfinished hg l r
    refine ⟨hnam, hgv', ?_⟩
    -- nobody else can be recording a session
    cases hrec : g.record with
    | sessionCreated | sessionDropped =>
      rw [hrec] at hat
      exact absurd (Option.some.inj (hhub.symm.trans hat.1)).symm hd
    | peerRegistered | peerUnregistered => rwa [hrec] at hat

theorem Sound.finish_peer {p : Conn} (hr : r.underHub = false) (hf : m.calls c = some ⟨r, .labelled l⟩)
    (hgau : Gauged m.entry (update m.broker.conns c p) (m.metrics.count l r)) :
    Sound { m with
      broker := m.broker.setConn c p, metrics := m.metrics.count l r
      calls := update m.calls c none } := by
  have hoth : ∀ d g, m.calls d = some g → g.record.underHub = true → d ≠ c := by
    rintro d g hg hunder rfl
    obtain rfl := Option.some.inj (hf.symm.trans hg)
    simp [hr] at hunder
  refine ⟨?_, ?_, ?_⟩
  · have hent (k) : entry { m with
        broker := m.broker.setConn c p, metrics := m.metrics.count l r
        calls := update m.calls c none } k = m.entry k := by
      cases hhub : m.hub with
      | none => simp [entry, hhub]
      | some d =>
        obtain ⟨g, hg, hunder⟩ := h.holder d hhub
        simp [entry, hhub, hg, hoth d g hg hunder]
    exact funext hent ▸ hgau
  · intro d hhub
    obtain ⟨g, hg, hunder⟩ := h.holder d hhub
    exact ⟨g, by simp [hoth d g hg hunder, hg], hunder⟩
  · intro d g hg
    obtain ⟨hd, hnam, hgv', hat⟩ := h.unfinished hg l r
    refine ⟨hnam, hgv', ?_⟩
    cases hrec : g.record with
    | sessionCreated | sessionDropped => rwa [hrec] at hat
    | peerRegistered | peerUnregistered =>
      rw [hrec] at hat
      simpa [Place, hd] using hat

end

variable (now : Time)

theorem sound_record (h : m.Sound) (hf : m.calls c = some f) :
    Sound (m.record cfg now c f) := by
  have hpend := h.pending c f hf
  obtain ⟨r, next⟩ := f
  cases next with
  | rlock | lock =>
    refine h.relabel (f := ⟨r, _⟩) (h.gauged.firstCome.label hpend.named hpend.given) ?_ ?_ hpend.place
    · intro g hg
      obtain rfl := Option.some.inj (hf.symm.trans hg)
      rfl
    · intro hanon
      simpa using hpend.named hanon
  | labelled l =>
    have hlabel : (r.tenant, l) ∈ m.metrics.labels := hpend.given l rfl
    cases hr : r.underHub with
    | true =>
      simp only [record, hr, if_true]
      exact h.finish_hub hr hf
    | false =>
      simp only [record, hr, Bool.false_eq_true, if_false]
      cases r with
      | sessionCreated | sessionDropped => simp [underHub] at hr
      -- the gauge moves as the connection passes the call
      | peerRegistered =>
        obtain ⟨⟨first, hpc⟩, rfl, rfl⟩ := hpend.place
        have hstep : m.broker.step cfg (.go c now) =
            m.broker.setConn c { m.broker.conns c with pc := .peerPresent first } :=
          Broker.step_local cfg now (by simp [Broker.localStep, hpc])
        rw [hstep]
        refine h.finish_peer hr hf ?_
        exact h.gauged.registered (p := { m.broker.conns c with pc := .peerPresent first })
          (by rw [hpc]; rfl) rfl hlabel
      | peerUnregistered =>
        obtain ⟨hpc, rfl, rfl⟩ := hpend.place
        have hstep : m.broker.step cfg (.go c now) = m.broker.setConn c { m.broker.conns c with pc := .dropIfEmpty } :=
          Broker.step_local cfg now (by simp [Broker.localStep, hpc])
        rw [hstep]
        exact h.finish_peer hr hf (h.gauged.unregistered (by rw [hpc]; rfl) rfl hlabel)

theorem sound_getOrCreate (h : m.Sound) (hfree : m.hub = none) {first : Option Frame}
    (hpc : (m.broker.conns c).pc = .getOrCreate first) :
    Sound (if m.broker.sessions (m.broker.conns c).key = none then
      { m with broker := m.broker.step cfg (.go c now) }.call c
        (.sessionCreated (m.broker.conns c).key)
      else { m with broker := m.broker.step cfg (.go c now) }) := by
  have hm : Broker.Move cfg m.broker (.go c now) (m.broker.step cfg (.go c now)) := .of_getOrCreate now hpc
  have hrec : ∀ d t, Act.go c now = .go d t → (m.broker.conns d).pc.metering = false := by simp [hpc, metering]
  rcases hm.sessions_getOrCreate hpc with ⟨hsome, hsame⟩ | ⟨hnone, g, hnew⟩
  · rw [if_neg hsome]
    exact h.moved hm hrec hsame
  rw [if_pos hnone]
  refine h.call_hub hfree hm hrec rfl ⟨rfl, by simp [call, hnew]⟩ fun k => ?_
  by_cases hk : k = (m.broker.conns c).key
  · simp [before, hk, hnone]
  · simp [before, hk, hnew]

theorem sound_dropIfEmpty (h : m.Sound) (hfree : m.hub = none)
    (hpc : (m.broker.conns c).pc = .rejected ∨ (m.broker.conns c).pc = .dropIfEmpty) :
    Sound (if (m.broker.step cfg (.go c now)).sessions (m.broker.conns c).key ≠
        m.broker.sessions (m.broker.conns c).key then
      { m with broker := m.broker.step cfg (.go c now) }.call c
        (.sessionDropped (m.broker.conns c).key)
      else { m with broker := m.broker.step cfg (.go c now) }) := by
  have hm : Broker.Move cfg m.broker (.go c now) (m.broker.step cfg (.go c now)) := .of_dropIfEmpty now hpc
  have hrec : ∀ d t, Act.go c now = .go d t → (m.broker.conns d).pc.metering = false := by
    rcases hpc with hpc | hpc <;> simp [hpc, metering]
  rcases hm.sessions_dropIfEmpty hpc with hsame | ⟨hsome, hgone⟩
  · rw [if_neg (by simp [hsame])]
    exact h.moved hm hrec hsame
  have hchd : (m.broker.step cfg (.go c now)).sessions (m.broker.conns c).key ≠
      m.broker.sessions (m.broker.conns c).key := by
    rw [hgone, update_self]
    exact hsome.symm
  rw [if_pos hchd]
  refine h.call_hub hfree hm hrec rfl ⟨rfl, by simp [call, hgone]⟩ fun k => ?_
  by_cases hk : k = (m.broker.conns c).key
  · simpa [before, hk, Option.isSome_iff_ne_none] using hsome
  · simp [before, hk, hgone]

theorem sound_step_broker (h : m.Sound) (hpc : ∀ c now, a = .go c now →
      (m.broker.conns c).pc.metering = false ∧ (m.broker.conns c).pc.usesHub = false) :
    Sound { m with broker := m.broker.step cfg a } := by
  rcases Broker.step_move cfg m.broker a with hstay | hm
  · rwa [hstay]
  · exact h.moved hm (fun c now heq => (hpc c now heq).1) (hm.sessions fun c now heq => (hpc c now heq).2)

theorem sound_go (h : m.Sound) (hnone : m.calls c = none) :
    Sound (m.go cfg now c) := by
  have hpeer : ∀ r, r.underHub = false → m.Place c r → Sound (m.call c r) := by
    intro r hr hplc
    have hsnd := h.relabel (f := ⟨r, (m.metrics.enter r.tenant).2⟩)
      (h.gauged.firstCome.enter r.tenant) (by simp [hnone]) (enter_named _) hplc
    simpa [call, hr] using hsnd
  simp only [go]
  split
  next first hpc =>
    split
    -- the mutex is held: wait
    · exact h
    next hfree => exact sound_getOrCreate now h (by simpa using hfree) hpc
  next hpc =>
    split
    · exact h
    next hfree => exact sound_dropIfEmpty now h (by simpa using hfree) (.inl hpc)
  next hpc =>
    split
    · exact h
    next hfree => exact sound_dropIfEmpty now h (by simpa using hfree) (.inr hpc)
  next first hpc => exact hpeer _ rfl ⟨⟨first, hpc⟩, rfl, rfl⟩
  next hpc => exact hpeer _ rfl ⟨hpc, rfl, rfl⟩
  · refine sound_step_broker h ?_
    rintro d t heq
    cases hpc : (m.broker.conns c).pc <;> simp_all [metering, usesHub]

theorem sound_step (h : m.Sound) (a : Act) : Sound (m.step cfg a) := by
  cases a with
  | go c now =>
    simp only [step]
    split
    next f hf => exact sound_record now h hf
    next hnone => exact sound_go now h hnone
  | _ => exact sound_step_broker h (by simp)

theorem sound_run (cfg : Config) (acts : List Act) : (runMetered cfg acts).Sound :=
  Runs.invariant_run (step cfg) Sound (fun _ a h => sound_step h a) sound_new acts

structure Consistent (m : Metered) : Prop where
  stable : ∀ t l l', (t, l) ∈ m.metrics.labels → (t, l') ∈ m.metrics.labels → l = l'
  few : (m.metrics.labels.map snd).toFinset.card ≤ 102
  labelled : ∀ k, m.entry k = true → ∃ l, (k.tenant, l) ∈ m.metrics.labels
  sessions : ∀ l, Counts (fun k => m.entry k = true ∧ (k.tenant, l) ∈ m.metrics.labels) (m.metrics.activeSessions l)
  connections : ∀ role l, Counts (fun c => (m.broker.conns c).pc.counted = true ∧
      (m.broker.conns c).role = role ∧ ((m.broker.conns c).key.tenant, l) ∈ m.metrics.labels)
    (m.metrics.activeConnections (role, l))
  nonneg : (∀ l, 0 ≤ m.metrics.activeSessions l) ∧ ∀ x, 0 ≤ m.metrics.activeConnections x

end Metered

/-- Under every schedule a tenant keeps the label of its first use, there are at most 102
labels, and both gauges are exact. -/
theorem metrics_consistent (cfg : Config) (acts : List Act) :
    (runMetered cfg acts).Consistent := by
  have hgauged := (Metered.sound_run cfg acts).gauged
  refine ⟨?_, hgauged.firstCome.bounded, hgauged.knownSession, hgauged.sessions, ?_, ?_, ?_⟩
  · exact fun t l l' hl hl' => hgauged.firstCome.stable hl hl'
  · exact fun role l => hgauged.connections (role, l)
  · exact fun l => (hgauged.sessions l).nonneg
  · exact fun x => (hgauged.connections x).nonneg

end Chromeless.Signaling
