import ApprovalFlow.Auth.Service
import ApprovalFlow.Async.Pool

/-!
# Concurrent registrations

Any number of registrations, logins and seedings on one store, interleaved at every await. A registration
writes without an etag, so nothing stops it where another call wrote the account after it looked.

* `lastRead`: the etag that a call last read for a key; `Unraced`: a registration writes an account with
  the etag it read.
* `registered_once`: then at most one registration of an email returns, and a stored account stays.
* `registered_twice`: two registrations and a seeding of one email.
-/

namespace ApprovalFlow.Auth
open Async Versioned DaprStateUserRepository

abbrev AuthEvent := Event (storeSig User) Exn AuthResponse AuthCall

abbrev AuthWorld := World (storeSig User) Exn AuthResponse (Store User) AuthCall

abbrev AuthConfig := Config (storeSig User) Exn AuthResponse (Store User) AuthCall

/-- Concurrent calls of the service. -/
def authClients (derive : String → String → String) (jwtSecret : Option String)
    (createAccessToken : String → Role → String → String) :
    System (storeSig User) Exn AuthResponse (Store User) Reception AuthCall where
  body := (daprAuth derive jwtSecret createAccessToken).call
  invoke _ s := some s
  exec := lossyStore User

/-- The thread and the etag of a read of a key. -/
def readOf (k : String) : AuthEvent → Option (Nat × Nat)
  | .perform i _ (.get k') (.ok r) => if k' = k then some (i, r.2) else none
  | _ => none

/-- The etag that a thread last read for a key. -/
def lastRead (i : Nat) (k : String) : List AuthEvent → Option Nat
  | [] => none
  | e :: log =>
    match readOf k e with
    | some (j, etag) => if j = i then some etag else lastRead i k log
    | none => lastRead i k log

/-- Where an account is written unconditionally, its etag is the one that the call read. -/
def Unraced (email : String) : StepCond (storeSig User) Exn AuthResponse (Store User) Reception AuthCall :=
  fun w i _ o c => ∀ ws, o = .transact ws → c ≠ .refuse → (∃ u ∈ ws, u.key = key email ∧ u.etag = none) →
    lastRead i (key email) w.log = some (w.state.etag (key email))

/-- The event is the write of a registration of the email. -/
def registers (email : String) : AuthEvent → Bool
  | .perform _ (.register email' _ _) (.transact _) (.ok _) => email' = email
  | _ => false

/-- The threads whose registration of the email was written, newest first. -/
def registrants (email : String) (log : List AuthEvent) : List Nat :=
  (log.filter (registers email)).map Event.tid

/-- At most one registration was written, and its account is there. -/
structure Once (email : String) (w : AuthWorld) : Prop where
  once : (registrants email w.log).length ≤ 1
  stored : registrants email w.log ≠ [] → w.state.value (key email) ≠ none

/-- What the others do: an account that is stored stays. -/
structure Interferes (email : String) (i : Nat) (w w₁ : AuthWorld) : Prop where
  kept : ∀ u, w.state.value (key email) = some u → w₁.state.value (key email) = some u
  lastRead : Auth.lastRead i (key email) w₁.log = Auth.lastRead i (key email) w.log
  registrants : i ∈ Auth.registrants email w₁.log ↔ i ∈ Auth.registrants email w.log

/-- A registration of the email that returned was written. -/
def Written (email : String) (i : Nat) (c : AuthCall) (result : Except Exn AuthResponse)
    (w : AuthWorld) : Prop :=
  ∀ password salt response, c = .register email password salt → result = .ok response →
    i ∈ registrants email w.log

section Steps
variable {email : String} {i : Nat} {c : AuthCall} {w : AuthWorld}

theorem Interferes.refl (email : String) (i : Nat) (w : AuthWorld) : Interferes email i w w :=
  ⟨fun _ h => h, rfl, Iff.rfl⟩

theorem Interferes.trans {w₁ w₂ : AuthWorld} (h₁ : Interferes email i w w₁)
    (h₂ : Interferes email i w₁ w₂) : Interferes email i w w₂ :=
  ⟨fun u hu => h₂.kept u (h₁.kept u hu), h₂.lastRead.trans h₁.lastRead, h₂.registrants.trans h₁.registrants⟩

theorem lastRead_get (k : String) (r : Option User × Nat) (log : List AuthEvent) :
    lastRead i k (.perform i c (.get k) (.ok r) :: log) = some r.2 := by
  simp [lastRead, readOf]

theorem lastRead_cons_ne {k : String} {e : AuthEvent} (he : ∀ etag, readOf k e ≠ some (i, etag))
    (log : List AuthEvent) : lastRead i k (e :: log) = lastRead i k log := by
  rw [lastRead]
  cases hread : readOf k e with
  | none => rfl
  | some r =>
    obtain ⟨j, etag⟩ := r
    have hj : j ≠ i := fun hj => he etag (hj ▸ hread)
    exact if_neg hj

theorem tid_of_readOf {k : String} {e : AuthEvent} {r : Nat × Nat}
    (he : readOf k e = some r) : e.tid = r.1 := by
  unfold readOf at he
  split at he
  · split_ifs at he
    cases he
    rfl
  · cases he

theorem registrants_cons_false {e : AuthEvent} (he : registers email e = false) (log : List AuthEvent) :
    registrants email (e :: log) = registrants email log := by
  simp [registrants, he]

theorem registrants_cons_true {e : AuthEvent} (he : registers email e = true) (log : List AuthEvent) :
    registrants email (e :: log) = e.tid :: registrants email log := by
  simp [registrants, he]

theorem registers_get (k : String) (r : Except Exn (Option User × Nat)) :
    registers email (.perform i c (.get k) r) = false := by
  cases c <;> rfl

theorem registers_error (o : Op User) (e : Exn) : registers email (.perform i c o (.error e)) = false := by
  cases c <;> cases o <;> rfl

theorem registers_transact {ws : List (Write User)} {r : Except Exn Unit}
    (h : registers email (.perform i c (.transact ws) r) = true) :
    ∃ password salt, c = .register email password salt := by
  cases c with
  | register email' password salt =>
    cases r with
    | error e => cases h
    | ok _ => exact ⟨password, salt, by rw [← of_decide_eq_true h]⟩
  | login email' password => cases h
  | seed users => cases h

theorem Once.idle (h : Once email w) {e : AuthEvent} (he : registers email e = false) :
    Once email ⟨w.state, e :: w.log⟩ := by
  constructor
  · rw [registrants_cons_false he]
    exact h.once
  · rw [registrants_cons_false he]
    exact h.stored

theorem Interferes.idle {e : AuthEvent} (he : registers email e = false) {j : Nat} (hj : j ≠ e.tid) :
    Interferes email j w ⟨w.state, e :: w.log⟩ := by
  refine ⟨fun _ h => h, lastRead_cons_ne (fun etag hread => hj (tid_of_readOf hread).symm) w.log, ?_⟩
  rw [registrants_cons_false he]

/-- **The event of a write**: of another account, or where there was none. -/
theorem Once.put (h : Once email w) {u : User} (hfree : u.email = email → w.state.value (key email) = none)
    {e : AuthEvent} (he : registers email e = true → u.email = email) :
    Once email ⟨w.state.put (key u.email) u, e :: w.log⟩ ∧
      ∀ j, j ≠ e.tid → Interferes email j w ⟨w.state.put (key u.email) u, e :: w.log⟩ := by
  have hkept (v : User) (hv : w.state.value (key email) = some v) :
      (w.state.put (key u.email) u).value (key email) = some v := by
    have hne : key email ≠ key u.email := fun hkey => by
      rw [hfree (key_inj.mp hkey).symm] at hv
      cases hv
    rw [Store.value_put_ne _ _ hne, hv]
  have hread (j : Nat) (hj : j ≠ e.tid) : lastRead j (key email) (e :: w.log) =
      lastRead j (key email) w.log :=
    lastRead_cons_ne (fun etag hread => hj (tid_of_readOf hread).symm) w.log
  cases hreg : registers email e with
  | false =>
    refine ⟨⟨?_, fun hne => ?_⟩, fun j hj => ⟨hkept, hread j hj, ?_⟩⟩
    · rw [registrants_cons_false hreg]
      exact h.once
    · rw [registrants_cons_false hreg] at hne
      obtain ⟨v, hv⟩ := Option.ne_none_iff_exists'.mp (h.stored hne)
      rw [hkept v hv]
      exact Option.some_ne_none v
    · rw [registrants_cons_false hreg]
  | true =>
    have hemail := he hreg
    have hnone : registrants email w.log = [] := by
      by_contra hne
      exact h.stored hne (hfree hemail)
    refine ⟨⟨?_, fun _ => ?_⟩, fun j hj => ⟨hkept, hread j hj, ?_⟩⟩
    · rw [registrants_cons_true hreg, hnone]
      exact Nat.le_refl 1
    · rw [← hemail, Store.value_put_self]
      exact Option.some_ne_none u
    · rw [registrants_cons_true hreg, List.mem_cons]
      exact or_iff_right hj

/-! ### A call -/

variable {derive : String → String → String} {jwtSecret : Option String}
  {createAccessToken : String → Role → String → String}

abbrev SafeAuth (derive : String → String → String) (jwtSecret : Option String)
    (createAccessToken : String → Role → String → String) {β : Type} (email : String)
    (i : Nat) (c : AuthCall)
    (p : Prog (storeSig User) Exn β) (Φ : Except Exn β → AuthWorld → Prop) (w : AuthWorld) : Prop :=
  Safe (authClients derive jwtSecret createAccessToken) (Unraced email) (Once email)
    (Interferes email) i c p Φ w

/-- A read: what was found, with the etag that the log keeps. -/
theorem safe_getState {β : Type} {k : String}
    {f : Except Exn (Option User × Nat) → Prog (storeSig User) Exn β}
    {Φ : Except Exn β → AuthWorld → Prop}
    (hserved : ∀ u etag w₁, (u = none → etag = 0) →
      (k = key email → lastRead i (key email) w₁.log = some etag) →
      SafeAuth derive jwtSecret createAccessToken email i c (f (.ok (u, etag))) Φ w₁)
    (hfailed : ∀ w₁, SafeAuth derive jwtSecret createAccessToken email i c
      (f (.error (.rpcError ""))) Φ w₁) :
    SafeAuth derive jwtSecret createAccessToken email i c
      (((storeClient User).getState k).attempt f) Φ w := by
  rw [getState_attempt]
  intro w₁ _ hI reception _
  cases reception with
  | serve =>
    refine ⟨hI.idle (registers_get k _), fun j hj => .idle (registers_get k _) hj,
      hserved _ _ _ Store.etag_eq_zero.mpr fun hk => ?_⟩
    subst hk
    exact lastRead_get _ _ _
  | refuse => exact ⟨hI.idle (registers_get k _), fun j hj => .idle (registers_get k _) hj, hfailed _⟩
  | lose => exact ⟨hI.idle (registers_get k _), fun j hj => .idle (registers_get k _) hj, hfailed _⟩

/-- A transaction that is executed finds no account, if the call read none. -/
theorem absent_of_current {w₁ : AuthWorld} {u : User} {etag : Option Nat} {reception : Reception}
    (hetag : etag = none ∨ etag = some 0) (hread : lastRead i (key email) w.log = some 0)
    (hemail : u.email = email)
    (hR : Interferes email i w w₁)
    (hunraced : Unraced email w₁ i c (.transact [⟨key u.email, u, etag⟩]) reception)
    (hserved : reception ≠ .refuse) (hcurrent : w₁.state.Current [⟨key u.email, u, etag⟩]) :
    w₁.state.value (key email) = none := by
  refine Store.etag_eq_zero.mp ?_
  rcases hetag with rfl | rfl
  · have hcurrentRead := hunraced _ rfl hserved ⟨_, List.mem_singleton_self _, by rw [hemail], rfl⟩
    rw [hR.lastRead, hread] at hcurrentRead
    exact (Option.some.inj hcurrentRead).symm
  · rw [← hemail]
    exact Store.current_single.mp hcurrent

/-- **A write** of an account that was absent when the call read it, without an etag or with the empty
one. -/
theorem safe_write {β : Type} {u : User} {etag : Option Nat} (hetag : etag = none ∨ etag = some 0)
    (hread : u.email = email → lastRead i (key email) w.log = some 0)
    (hcall : ∀ password salt, c = .register email password salt → u.email = email)
    {f : Except Exn Unit → Prog (storeSig User) Exn β} {Φ : Except Exn β → AuthWorld → Prop}
    (hwritten : ∀ w₁, (∀ password salt, c = .register email password salt → i ∈ registrants email w₁.log) →
      SafeAuth derive jwtSecret createAccessToken email i c (f (.ok ())) Φ w₁)
    (hfailed : ∀ w₁, SafeAuth derive jwtSecret createAccessToken email i c
      (f (.error (.rpcError ""))) Φ w₁) :
    SafeAuth derive jwtSecret createAccessToken email i c
      (((storeClient User).executeStateTransaction [⟨key u.email, u, etag⟩]).attempt f) Φ w := by
  rw [executeStateTransaction_attempt]
  intro w₁ hR hI reception hok
  have hput (e : AuthEvent) (htid : e.tid = i) (he : registers email e = true → u.email = email)
      (hserved : reception ≠ .refuse) (hcurrent : w₁.state.Current [⟨key u.email, u, etag⟩]) :
      Once email ⟨w₁.state.put (key u.email) u, e :: w₁.log⟩ ∧
        ∀ j, j ≠ i → Interferes email j w₁ ⟨w₁.state.put (key u.email) u, e :: w₁.log⟩ := by
    rw [← htid]
    exact hI.put (fun hemail => absent_of_current hetag (hread hemail) hemail hR hok hserved hcurrent) he
  obtain ⟨rfl, hcurrent, hexec⟩ | ⟨rfl, hcurrent, hexec⟩ | hexec :=
    lossyStore_cases reception [⟨key u.email, u, etag⟩] w₁.state
  · have hexec : (authClients derive jwtSecret createAccessToken).exec .serve
        (.transact [⟨key u.email, u, etag⟩])
        w₁.state = (.ok (), w₁.state.put (key u.email) u) := hexec
    simp only [World.performed, hexec]
    obtain ⟨honce, hothers⟩ := hput (.perform i c (.transact [⟨key u.email, u, etag⟩]) (.ok ())) rfl
      (fun he => (registers_transact he).elim fun _ h => h.elim fun _ h => hcall _ _ h) (by decide) hcurrent
    refine ⟨honce, hothers, hwritten _ fun password salt hc => ?_⟩
    subst hc
    rw [registrants_cons_true (by simp [registers])]
    exact List.mem_cons_self
  · have hexec : (authClients derive jwtSecret createAccessToken).exec .lose
        (.transact [⟨key u.email, u, etag⟩])
        w₁.state = (.error (.rpcError ""), w₁.state.put (key u.email) u) := hexec
    simp only [World.performed, hexec]
    obtain ⟨honce, hothers⟩ :=
      hput (.perform i c (.transact [⟨key u.email, u, etag⟩]) (.error (.rpcError ""))) rfl
      (fun he => by rw [registers_error] at he; cases he) (by decide) hcurrent
    exact ⟨honce, hothers, hfailed _⟩
  · have hexec : (authClients derive jwtSecret createAccessToken).exec reception
        (.transact [⟨key u.email, u, etag⟩]) w₁.state = (.error (.rpcError ""), w₁.state) := hexec
    simp only [World.performed, hexec]
    exact ⟨hI.idle (registers_error _ _), fun j hj => .idle (registers_error _ _) hj, hfailed _⟩

theorem register_eq (email password salt : String) :
    (daprAuth derive jwtSecret createAccessToken).register email password salt =
      ((storeClient User).getState (key email)).attempt (StateClient.afterRead readError fun response =>
        match response.1 with
        | some _ => .raise (.userAlreadyExistsError email)
        | none =>
          ((storeClient User).executeStateTransaction
            [⟨key email, ⟨email, derive password salt, salt, .submitter⟩, none⟩]).attempt fun r =>
              (afterSave r).attempt (Prog.onOk fun _ => .ret (.registered email .submitter))) := by
  show ((getByEmail (storeClient User) email).attempt _ : Prog (storeSig User) Exn AuthResponse) = _
  rw [getByEmail_eq, Prog.attempt_assoc]
  refine Prog.attempt_congr fun reply => ?_
  rcases reply with e | ⟨u, etag⟩
  · rfl
  · cases u with
    | some u => rfl
    | none =>
      show (save (storeClient User) ⟨email, derive password salt, salt, .submitter⟩).attempt
          (Prog.onOk _) = _
      rw [save_eq, Prog.attempt_assoc]
      rfl

theorem safe_register (email' password salt : String) :
    SafeAuth derive jwtSecret createAccessToken email i (.register email' password salt)
      ((daprAuth derive jwtSecret createAccessToken).register email' password salt)
      (Written email i (.register email' password salt)) w := by
  rw [register_eq]
  refine safe_getState (fun u etag w₁ hetag hread => ?_) fun w₁ _ _ _ _ h => by cases h
  cases u with
  | some u =>
    intro _ _ _ _ h
    cases h
  | none =>
    refine safe_write (u := ⟨email', _, _, _⟩) (.inl rfl) (fun h => ?_) (fun _ _ h => ?_)
      (fun w₂ hw₂ => ?_) fun w₂ => ?_
    · rw [hread (congrArg key h), hetag rfl]
    · injection h
    · exact fun password salt _ h _ => hw₂ password salt h
    · intro _ _ _ _ h
      cases h

theorem safe_login (email' password : String) :
    SafeAuth derive jwtSecret createAccessToken email i (.login email' password)
      ((daprAuth derive jwtSecret createAccessToken).login email' password)
      (Written email i (.login email' password)) w := by
  have htrivial (result : Except Exn AuthResponse) (w₁ : AuthWorld) :
      Written email i (.login email' password) result w₁ :=
    fun _ _ _ h => by cases h
  show SafeAuth derive jwtSecret createAccessToken email i _
      ((getByEmail (storeClient User) email').attempt _) _ w
  rw [getByEmail_eq, Prog.attempt_assoc]
  refine safe_getState (fun u etag w₁ _ _ => ?_) fun w₁ => htrivial _ w₁
  cases u with
  | none => exact htrivial _ w₁
  | some u =>
    simp only [StateClient.afterRead, Prog.attempt_ret, Prog.onOk_ok]
    split_ifs
    · exact htrivial _ w₁
    · split
      · exact htrivial _ w₁
      · split_ifs
        · exact htrivial _ w₁
        · exact htrivial _ w₁

/-- **A seeding**, by induction on the entries. -/
theorem safe_seed (users users' : List (DemoUser × String)) :
    SafeAuth derive jwtSecret createAccessToken email i (.seed users)
      ((daprAuth derive jwtSecret createAccessToken).seedDemoUsers users')
        (Written email i (.seed users)) w := by
  have htrivial (result : Except Exn AuthResponse) (w₁ : AuthWorld) :
      Written email i (.seed users) result w₁ :=
    fun _ _ _ h => by cases h
  induction users' generalizing w with
  | nil => exact htrivial _ w
  | cons entry rest ih =>
    obtain ⟨entry, salt⟩ := entry
    simp only [AuthService.seedDemoUsers]
    cases Role.ofName (upper entry.role) with
    | error e => exact htrivial _ w
    | ok role =>
      show SafeAuth derive jwtSecret createAccessToken email i _
        ((ensureSeeded (storeClient User) ⟨entry.email, derive entry.password salt, salt,
          role⟩).attempt _) _ w
      rw [ensureSeeded_eq, Prog.attempt_assoc]
      refine safe_getState (fun u etag w₁ hetag hread => ?_) fun w₁ => htrivial _ w₁
      cases u with
      | some u => exact ih
      | none =>
        simp only [StateClient.afterRead, Prog.attempt_assoc]
        refine safe_write (u := ⟨entry.email, _, _, _⟩) (.inr (congrArg some (hetag rfl)))
          (fun h => ?_) (fun _ _ h => ?_) (fun w₂ _ => ?_) fun w₂ => ?_
        · rw [hread (congrArg key h), hetag rfl]
        · cases h
        · exact ih
        · exact ih

end Steps

/-- The proof outline of the service. -/
def outline (derive : String → String → String) (jwtSecret : Option String)
    (createAccessToken : String → Role → String → String) (email : String) :
    Outline (authClients derive jwtSecret createAccessToken) (Unraced email) where
  I := Once email
  R := Interferes email
  Post := Written email
  refl := .refl email
  trans _ _ _ _ h h' := h.trans h'
  post_stable hR _ h := fun password salt response hc hr =>
    hR.registrants.mpr (h password salt response hc hr)
  invoke := by
    intro w n c s hI _ hs
    cases hs
    refine ⟨hI.idle rfl, fun j hj => .idle rfl hj, ?_⟩
    cases c with
    | register email' password salt => exact safe_register email' password salt
    | login email' password => exact safe_login email' password
    | seed users => exact safe_seed users users
  respond := by
    intro w i c r hI _
    exact ⟨hI.idle rfl, fun j => ⟨fun _ h => h, rfl, Iff.rfl⟩⟩

/-- The registration of an email in thread `i` returned. -/
def Returned (email : String) (i : Nat) (cfg : AuthConfig) : Prop :=
  ∃ password salt response, cfg.threads[i]? = some ⟨.register email password salt, .done (.ok response)⟩

/-- **Registered once**: in every interleaving in which no call writes an account between the read and
the write of a registration of it, at most one registration of an email returns, and a stored account
stays as it is. -/
theorem registered_once (derive : String → String → String) (jwtSecret : Option String)
    (createAccessToken : String → Role → String → String) (email : String)
    (s : Store User) (cfg : AuthConfig)
    (hr : (authClients derive jwtSecret createAccessToken).Reach (meets (Unraced email))
      (System.start s) cfg) :
    (∀ i j, Returned email i cfg → Returned email j cfg → i = j) ∧
      ∀ cfg', (authClients derive jwtSecret createAccessToken).Reach (meets (Unraced email)) cfg cfg' →
        ∀ u, cfg.world.state.value (key email) = some u → cfg'.world.state.value (key email) = some u := by
  have hstart : Once email ⟨s, []⟩ := ⟨Nat.zero_le 1, fun h => absurd rfl h⟩
  have hholds := (outline derive jwtSecret createAccessToken email).sound hstart hr
  have hwritten (i : Nat) (hi : Returned email i cfg) : i ∈ registrants email cfg.world.log := by
    obtain ⟨password, salt, response, hthread⟩ := hi
    exact hholds.threads i _ hthread password salt response rfl rfl
  refine ⟨fun i j hi hj => ?_, fun cfg' hr' u hu => ?_⟩
  · have honce : (registrants email cfg.world.log).length ≤ 1 := hholds.inv.once
    match hlist : registrants email cfg.world.log, hwritten i hi, hwritten j hj with
    | [k], hi, hj => exact (List.mem_singleton.mp hi).trans (List.mem_singleton.mp hj).symm
    | k :: k' :: l, _, _ =>
      rw [hlist] at honce
      simp at honce
  · have hsees : Interferes email cfg'.threads.length cfg.world cfg'.world :=
      (hholds.observe hr').2 _ (Nat.le_refl _)
    exact hsees.kept u hu

/-! ## Two runs -/

/-- A hash that shows the password and the salt. -/
def plainClients : System (storeSig User) Exn AuthResponse (Store User) Reception AuthCall :=
  authClients (fun password salt => password ++ salt) none fun _ _ _ => ""

/-- A transaction finds the etag that its thread read. -/
def unraced (email : String) (cfg : AuthConfig) : Action Reception AuthCall → Bool
  | .step i _ =>
    match cfg.threads[i]? with
    | some ⟨_, .running (.await (.transact _) _)⟩ =>
      lastRead i (key email) cfg.world.log == some (cfg.world.state.etag (key email))
    | _ => true
  | _ => true

theorem meets_of_unraced (email : String) (cfg : AuthConfig) (a : Action Reception AuthCall)
    (h : unraced email cfg a = true) : meets (Unraced email) cfg a := by
  cases a with
  | invoke c => trivial
  | respond i => trivial
  | step i reception =>
    intro call o k hi ws ho _ _
    subst ho
    simp only [unraced, hi, beq_iff_eq] at h
    exact h

/-- Registrations of dana, one after the other. -/
def inTurn : List (Action Reception AuthCall) :=
  [.invoke (.register "dana@example.com" "first" "1"), .step 0 .serve, .step 0 .serve, .respond 0,
    .invoke (.register "dana@example.com" "second" "2"), .step 1 .serve, .respond 1]

def registeredInTurn : AuthConfig :=
  (plainClients.runActions (unraced "dana@example.com") inTurn (System.start .empty)).get (by decide)

theorem registered_once_in_turn :
    Returned "dana@example.com" 0 registeredInTurn ∧
      (∀ i j, Returned "dana@example.com" i registeredInTurn →
        Returned "dana@example.com" j registeredInTurn → i = j) ∧
      ∀ cfg', plainClients.Reach (meets (Unraced "dana@example.com")) registeredInTurn cfg' → ∀ u,
        registeredInTurn.world.state.value (key "dana@example.com") = some u →
          cfg'.world.state.value (key "dana@example.com") = some u :=
  ⟨⟨"first", "1", .registered "dana@example.com" .submitter, rfl⟩,
    registered_once _ _ _ "dana@example.com" .empty registeredInTurn
      (System.reach_of_runActions (meets_of_unraced "dana@example.com") inTurn (Option.some_get _).symm)⟩

/-- Two registrations look for the administrator before the seeding writes it. -/
def seeding : List (Action Reception AuthCall) :=
  [.invoke (.register "admin@example.com" "first" "1"),
    .invoke (.register "admin@example.com" "second" "2"),
    .step 0 .serve, .step 1 .serve,
      .invoke (.seed [(⟨"admin@example.com", "AdminDemo123!", "admin"⟩, "0")]),
    .step 2 .serve, .step 2 .serve, .respond 2]

def seededAdmin : AuthConfig :=
  (plainClients.runActions (fun _ _ => true) seeding (System.start .empty)).get (by decide)

def overwritten : AuthConfig :=
  (plainClients.runActions (fun _ _ => true) [.step 0 .serve, .respond 0, .step 1 .serve,
    .respond 1] seededAdmin).get (by decide)

/-- **Registered twice**: both registrations return, and the seeded administrator becomes a submitter
with the second password. -/
theorem registered_twice :
    plainClients.Reach (fun _ _ => True) (System.start .empty) seededAdmin ∧
      seededAdmin.world.state.value (key "admin@example.com") =
        some ⟨"admin@example.com", "AdminDemo123!0", "0", .admin⟩ ∧
      plainClients.Reach (fun _ _ => True) seededAdmin overwritten ∧
      Returned "admin@example.com" 0 overwritten ∧ Returned "admin@example.com" 1 overwritten ∧
      overwritten.world.state.value (key "admin@example.com") =
        some ⟨"admin@example.com", "second2", "2", .submitter⟩ :=
  ⟨System.reach_of_runActions (fun _ _ _ => trivial) seeding (Option.some_get _).symm, by decide,
    System.reach_of_runActions (fun _ _ _ => trivial) _ (Option.some_get _).symm,
    ⟨"first", "1", .registered "admin@example.com" .submitter, rfl⟩,
    ⟨"second", "2", .registered "admin@example.com" .submitter, rfl⟩, by decide⟩

end ApprovalFlow.Auth
