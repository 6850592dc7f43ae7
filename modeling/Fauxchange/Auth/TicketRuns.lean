import Fauxchange.Auth.Serving

/-! The WebSocket tickets over a run: each is redeemed at most as often as it was minted and within its lifetime, for the
claims of a bearer token that was admitted, and the store never holds more than its ceiling. -/

namespace Fauxchange.Auth
open Lib
open Fauxchange.Fix (Ironfix)

section Stores
variable (store : WsTicketStore) (ticket other : String) (entry : WsTicketEntry) (nowSecs : Nat)

/-- How many copies of a ticket a store holds. -/
def WsTicketStore.copies (store : WsTicketStore) (ticket : String) : Nat := if ticket ∈ store.tickets then 1 else 0

theorem copies_sweepExpired_le : (store.sweepExpired nowSecs).copies ticket ≤ store.copies ticket := by
  unfold WsTicketStore.copies
  split
  next inside =>
    have member : ticket ∈ store.tickets := Std.ExtTreeMap.mem_of_mem_filter inside
    rw [if_pos member]
  next => exact Nat.zero_le _

theorem size_sweepExpired_le : (store.sweepExpired nowSecs).tickets.size ≤ store.tickets.size :=
  Std.ExtTreeMap.size_filter_le_size

theorem copies_insert_le :
    (store.insert ticket entry).copies other ≤ store.copies other + if ticket = other then 1 else 0 := by
  unfold WsTicketStore.copies WsTicketStore.insert
  by_cases same : ticket = other
  · rw [if_pos same]
    split <;> omega
  · have apart : other ∈ store.tickets.insert ticket entry ↔ other ∈ store.tickets := by
      rw [Std.ExtTreeMap.mem_insert, Std.LawfulEqCmp.compare_eq_iff_eq]
      exact ⟨fun member => member.resolve_left same, Or.inr⟩
    simp only [apart]
    omega

theorem copies_erase_le : ({ store with tickets := store.tickets.erase ticket } : WsTicketStore).copies other ≤
    store.copies other := by
  unfold WsTicketStore.copies
  split
  next inside => rw [if_pos (Std.ExtTreeMap.mem_of_mem_erase inside)]
  next => exact Nat.zero_le _

/-- A ticket that is redeemed was there and is gone. -/
theorem copies_redeemed (there : store.tickets[ticket]?.isSome) :
    ({ store with tickets := store.tickets.erase ticket } : WsTicketStore).copies other + (if ticket = other then 1 else 0) ≤
      store.copies other := by
  by_cases same : ticket = other
  · subst same
    have member : ticket ∈ store.tickets := Std.ExtTreeMap.mem_iff_isSome_getElem?.2 there
    simp [WsTicketStore.copies, member]
  · rw [if_neg same]
    exact copies_erase_le store ticket other

end Stores

/-- A bearer token with these claims was presented on the ticket route. -/
def Borne (jwt : JwtAuth) (actions : List SurfaceAction) (claims : Claims) : Prop :=
  ∃ token peer reading, .request wsTicketPath (some token) peer reading ∈ actions ∧
    jwt.decode reading.nowSecs token = some claims

/-- A ticket was made for such claims, and lives from then on. -/
def Made (jwt : JwtAuth) (actions : List SurfaceAction) (entry : WsTicketEntry) : Prop :=
  Borne jwt actions entry.claims ∧ ∃ nowSecs bytes, .prepareTicket entry.claims nowSecs bytes ∈ actions ∧
    entry.expiresAtSecs = nowSecs + wsTicketTtlSecs

/-- The tickets of a run so far, with those of the store and those that have been redeemed. -/
structure Ticketed (jwt : JwtAuth) (ceiling : Nat) (actions : List SurfaceAction) (surfaces : Surfaces) : Prop where
  bound : surfaces.tickets.maxTickets = ceiling
  size : surfaces.tickets.tickets.size ≤ ceiling
  room : surfaces.gate.isSome → surfaces.tickets.tickets.size < ceiling
  requests : ∀ {claims}, (wsTicketPath, claims) ∈ surfaces.requests → Borne jwt actions claims
  prepared : ∀ {ticket entry}, (ticket, entry) ∈ surfaces.prepared → Made jwt actions entry
  gate : ∀ {ticket entry}, surfaces.gate = some (ticket, entry) → Made jwt actions entry
  minted : ∀ {ticket entry}, (ticket, entry) ∈ surfaces.minted → Made jwt actions entry
  stored : ∀ {ticket : String} {entry : WsTicketEntry}, surfaces.tickets.tickets[ticket]? = some entry →
    (ticket, entry) ∈ surfaces.minted
  taken : ∀ {ticket entry nowSecs}, (ticket, entry, nowSecs) ∈ surfaces.taken →
    (ticket, entry) ∈ surfaces.minted ∧ nowSecs < entry.expiresAtSecs
  once : ∀ ticket, (surfaces.taken.map Prod.fst).count ticket + surfaces.tickets.copies ticket ≤
    (surfaces.minted.map Prod.fst).count ticket

section Steps
variable {jwt : JwtAuth} {ceiling : Nat} {actions : List SurfaceAction} {action : SurfaceAction} {surfaces next : Surfaces}
  {claims : Claims} {entry : WsTicketEntry}

theorem Borne.later (borne : Borne jwt actions claims) : Borne jwt (actions ++ [action]) claims := by
  obtain ⟨token, peer, reading, asked, verified⟩ := borne
  exact ⟨token, peer, reading, List.mem_append_left _ asked, verified⟩

theorem Made.later (made : Made jwt actions entry) : Made jwt (actions ++ [action]) entry := by
  obtain ⟨borne, nowSecs, bytes, asked, expires⟩ := made
  exact ⟨borne.later, nowSecs, bytes, List.mem_append_left _ asked, expires⟩

theorem Ticketed.later (ticketed : Ticketed jwt ceiling actions surfaces) : Ticketed jwt ceiling (actions ++ [action]) surfaces :=
  { ticketed with
    requests := fun member => (ticketed.requests member).later
    prepared := fun member => (ticketed.prepared member).later
    gate := fun inside => (ticketed.gate inside).later
    minted := fun member => (ticketed.minted member).later }

variable [Ironfix] {U : Exchange.Upstream} {gate : BootstrapGate} {served : List Served}

theorem Ticketed.moved (ticketed : Ticketed jwt ceiling actions surfaces) (moved : Moved jwt U gate surfaces action next served) :
    Ticketed jwt ceiling (actions ++ [action]) next := by
  have later : Ticketed jwt ceiling (actions ++ [action]) surfaces := ticketed.later
  cases moved with
  | @admitted path token peer claims reading limiter known verified honoured permitted =>
    exact {
      later with
      requests := fun member => by
        rcases List.mem_append.1 member with old | new
        · exact later.requests old
        · cases List.mem_singleton.1 new
          exact ⟨token, peer, reading, List.mem_append_right _ List.mem_cons_self, verified⟩ }
  | finished => exact { later with requests := fun member => later.requests (List.mem_of_mem_erase member) }
  | @prepared claims nowSecs bytes ticket member =>
    exact {
      later with
      prepared := fun made => by
        rcases List.mem_append.1 made with old | new
        · exact later.prepared old
        · cases List.mem_singleton.1 new
          exact ⟨later.requests member, nowSecs, bytes, List.mem_append_right _ List.mem_cons_self, rfl⟩ }
  | @gated ticket entry nowSecs member free =>
    have fits := size_sweepExpired_le surfaces.tickets nowSecs
    exact {
      later with
      size := fits.trans later.size
      room := fun inside => by
        split at inside
        next admitted =>
          have below : (surfaces.tickets.sweepExpired nowSecs).tickets.size < surfaces.tickets.maxTickets := of_decide_eq_true admitted
          rw [later.bound] at below
          exact below
        next => cases inside
      prepared := fun left => later.prepared (List.mem_of_mem_erase left)
      gate := fun inside => by
        split at inside
        · cases inside
          exact later.prepared member
        · cases inside
      stored := fun found => later.stored (of_getElem?_sweepExpired found).1
      once := fun other => (Nat.add_le_add_left (copies_sweepExpired_le surfaces.tickets other nowSecs) _).trans (later.once other) }
  | @inserted ticket entry inside =>
    have room := later.room (by rw [inside]; rfl)
    exact {
      later with
      size := Std.ExtTreeMap.size_insert_le.trans room
      room := nofun
      gate := nofun
      minted := fun member => by
        rcases List.mem_append.1 member with old | new
        · exact later.minted old
        · cases List.mem_singleton.1 new
          exact later.gate inside
      stored := fun found => by
        rcases of_getElem?_insert found with ⟨rfl, rfl⟩ | ⟨-, old⟩
        · exact List.mem_append_right _ List.mem_cons_self
        · exact List.mem_append_left _ (later.stored old)
      taken := fun member => ⟨List.mem_append_left _ (later.taken member).1, (later.taken member).2⟩
      once := fun other => by
        have held := later.once other
        have grown := copies_insert_le surfaces.tickets ticket other entry
        rw [List.map_append, List.count_append, List.map_singleton, List.count_singleton]
        simp only [beq_iff_eq]
        omega }
  | @missed ticket nowSecs tickets kept =>
    rcases kept with rfl | rfl
    · exact { later with }
    · have fits : (surfaces.tickets.tickets.erase ticket).size ≤ surfaces.tickets.tickets.size := Std.ExtTreeMap.size_erase_le
      exact {
        later with
        size := fits.trans later.size
        room := fun inside => fits.trans_lt (later.room inside)
        stored := fun left => later.stored (of_getElem?_erase left).2
        once := fun other => (Nat.add_le_add_left (copies_erase_le surfaces.tickets ticket other) _).trans (later.once other) }
  | @redeemed ticket nowSecs entry found early =>
    have fits : (surfaces.tickets.tickets.erase ticket).size ≤ surfaces.tickets.tickets.size := Std.ExtTreeMap.size_erase_le
    exact {
      later with
      size := fits.trans later.size
      room := fun inside => fits.trans_lt (later.room inside)
      stored := fun left => later.stored (of_getElem?_erase left).2
      taken := fun member => by
        rcases List.mem_append.1 member with old | new
        · exact later.taken old
        · cases List.mem_singleton.1 new
          exact ⟨later.stored found, early⟩
      once := fun other => by
        have held := later.once other
        have left := copies_redeemed surfaces.tickets ticket other (found ▸ rfl)
        rw [List.map_append, List.count_append, List.map_singleton, List.count_singleton]
        simp only [beq_iff_eq]
        omega }
  | joined member early honoured =>
    exact {
      later with
      requests := fun held => by
        rcases List.mem_append.1 held with old | new
        · exact later.requests old
        · have same : wsTicketPath = wsPath := congrArg Prod.fst (List.mem_singleton.1 new)
          exact absurd same (by decide) }
  | opened member free room =>
    exact { later with requests := fun left => later.requests (List.mem_of_mem_erase left) }
  | _ => exact { later with }

end Steps

section Runs
variable {jwt : JwtAuth} {hasher : Argon2Hasher} {limiter : RateLimiter} {maxTickets : Nat} {backend : Fix.Backend}
  {config : Fix.SessionConfig}

theorem ticketed_new : Ticketed jwt (max maxTickets 1) [] (.new hasher limiter maxTickets backend config) where
  bound := rfl
  size := Nat.zero_le _
  room := nofun
  requests := nofun
  prepared := nofun
  gate := nofun
  minted := nofun
  stored found := by simp [Surfaces.new, WsTicketStore.new] at found
  taken := nofun
  once _ := Nat.le_refl 0

variable [Ironfix] {U : Exchange.Upstream} {gate : BootstrapGate} {actions : List SurfaceAction} {surfaces : Surfaces}

theorem Ticketed.run (run : runFrom (Surfaces.step jwt · U gate) (.new hasher limiter maxTickets backend config) actions = some surfaces) :
    Ticketed jwt (max maxTickets 1) actions surfaces := by
  have preserved : ∀ done state action next, Ticketed jwt (max maxTickets 1) done state →
      state.step jwt U gate action = some next → Ticketed jwt (max maxTickets 1) (done ++ [action]) next :=
    fun _ _ _ _ ticketed taken => ticketed.moved (step_moved taken).choose_spec
  exact runFrom_history preserved ticketed_new run

/-- Over every run the store keeps to its ceiling, and a ticket is redeemed no more often than it was minted: within its
lifetime, counted from when it was made, and for the claims of a bearer token that verified on the ticket route. -/
theorem tickets_once
    (run : runFrom (Surfaces.step jwt · U gate) (.new hasher limiter maxTickets backend config) actions = some surfaces) :
    surfaces.tickets.tickets.size ≤ max maxTickets 1 ∧
      (∀ ticket, (surfaces.taken.map Prod.fst).count ticket ≤ (surfaces.minted.map Prod.fst).count ticket) ∧
      ∀ {ticket entry redeemedAt}, (ticket, entry, redeemedAt) ∈ surfaces.taken →
        (ticket, entry) ∈ surfaces.minted ∧ Borne jwt actions entry.claims ∧
          ∃ nowSecs bytes, .prepareTicket entry.claims nowSecs bytes ∈ actions ∧ redeemedAt < nowSecs + wsTicketTtlSecs := by
  have ticketed := Ticketed.run run
  refine ⟨ticketed.size, fun ticket => le_of_add_le_left (ticketed.once ticket), fun member => ?_⟩
  obtain ⟨minted, early⟩ := ticketed.taken member
  obtain ⟨borne, nowSecs, bytes, asked, expires⟩ := ticketed.minted minted
  exact ⟨minted, borne, nowSecs, bytes, asked, expires ▸ early⟩

end Runs

/-! The operator again, who comes in with a ticket. -/

def ticketClaims : Claims := ⟨"operator", [.admin], 0, 900, 0⟩

def ticketActions : List SurfaceAction :=
  [.insert operator, .issueToken "peer" "operator" "secret" 0 900 ⟨0, 0, 0⟩,
    .request wsTicketPath (some "operator") "peer" ⟨1, 1, 1⟩, .prepareTicket ticketClaims 1 (some [10, 200]),
    .enterGate "0ac8" ⟨ticketClaims, 31⟩ 1, .leaveGate, .redeem "0ac8" 30, .redeem "0ac8" 30]

def ticketSurfaces : Surfaces := (runFrom operatorStep emptySurfaces ticketActions).getD emptySurfaces

theorem ticketSurfaces_run : runFrom operatorStep emptySurfaces ticketActions = some ticketSurfaces := by
  have finished : (runFrom operatorStep emptySurfaces ticketActions).isSome = true := by decide +kernel
  rw [ticketSurfaces, ← Option.get_eq_getD _ (h := finished), Option.some_get]

theorem operator_ticket_once : (ticketSurfaces.taken.map Prod.fst).count "0ac8" ≤ (ticketSurfaces.minted.map Prod.fst).count "0ac8" :=
  (@tickets_once listedJwt _ _ _ _ _ Fix.referenceWire Exchange.referenceUpstream _ _ _ ticketSurfaces_run).2.1 "0ac8"

example : ticketSurfaces.taken = [("0ac8", ⟨ticketClaims, 31⟩, 30)] := by decide +kernel

end Fauxchange.Auth
