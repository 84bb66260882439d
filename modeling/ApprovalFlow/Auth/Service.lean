import ApprovalFlow.Shared.StateClient

/-!
# The auth service

Accounts, their registration and the seeding of the demo accounts.

* `User`: an account, with the hash of its password.
* `UserRepository`, `AuthService`: the protocol and the methods; `seedDemoUsers`: the seeding at startup.
* `DaprStateUserRepository`: `user:{email}` holds an account; `save` is unconditional, `ensureSeeded` is
  not.
* `AuthService.call`: a registration, a login or a seeding.
-/

namespace ApprovalFlow
open Async

inductive Role
  | submitter
  | approver
  | admin
  deriving DecidableEq, Repr

/-- `Role[name]`. -/
def Role.ofName : String → Except Exn Role
  | "SUBMITTER" => .ok submitter
  | "APPROVER" => .ok approver
  | "ADMIN" => .ok admin
  | name => .error (.keyError name)

/-- `str.upper` of an ASCII text. -/
def upper (text : String) : String := String.ofList (text.toList.map Char.toUpper)

structure User where
  email : String
  passwordHash : String
  salt : String
  role : Role
  deriving DecidableEq

/-- An entry of `demo_users.json`. -/
structure DemoUser where
  email : String
  password : String
  role : String

structure UserRepository (σ : Sig) where
  getByEmail : String → Prog σ Exn (Option User)
  save : User → Prog σ Exn Unit
  ensureSeeded : User → Prog σ Exn Unit

/-- `hash_password`, for the salt that `token_hex` draws. -/
def hashPassword (derive : String → String → String) (salt password : String) : String × String :=
  (derive password salt, salt)

def verifyPassword (derive : String → String → String) (password passwordHash salt : String) : Bool :=
  derive password salt == passwordHash

/-- What a call returns. -/
inductive AuthResponse
  | registered (email : String) (role : Role)
  | loggedIn (accessToken : String)
  | seeded
  deriving DecidableEq

structure AuthService (σ : Sig) where
  repository : UserRepository σ
  /-- `_derive`: PBKDF2 of a password and a salt. -/
  derive : String → String → String
  jwtSecret : Option String
  createAccessToken : (subject : String) → Role → (secret : String) → String

namespace AuthService
variable {σ : Sig} (svc : AuthService σ)

def register (email password salt : String) : Prog σ Exn AuthResponse := do
  match ← svc.repository.getByEmail email with
  | some _ => .raise (.userAlreadyExistsError email)
  | none =>
    let (passwordHash, salt) := hashPassword svc.derive salt password
    let user : User := ⟨email, passwordHash, salt, .submitter⟩
    svc.repository.save user
    return .registered user.email user.role

/-- Both failures raise the same exception. -/
def login (email password : String) : Prog σ Exn AuthResponse := do
  match ← svc.repository.getByEmail email with
  | none => .raise .invalidCredentialsError
  | some user =>
    if !verifyPassword svc.derive password user.passwordHash user.salt then .raise .invalidCredentialsError
    else match svc.jwtSecret with
      | none => .raise .runtimeError
      | some secret =>
        if secret.isEmpty then .raise .runtimeError
        else return .loggedIn (svc.createAccessToken user.email user.role secret)

/-- `seed_demo_users`, each entry with its salt. -/
def seedDemoUsers : List (DemoUser × String) → Prog σ Exn AuthResponse
  | [] => return .seeded
  | (entry, salt) :: rest => do
    let (passwordHash, salt) := hashPassword svc.derive salt entry.password
    let role ← Prog.ofExcept (Role.ofName (upper entry.role))
    svc.repository.ensureSeeded ⟨entry.email, passwordHash, salt, role⟩
    seedDemoUsers rest

end AuthService

inductive AuthCall
  | register (email password salt : String)
  | login (email password : String)
  | seed (users : List (DemoUser × String))

def AuthService.call {σ : Sig} (svc : AuthService σ) : AuthCall → Prog σ Exn AuthResponse
  | .register email password salt => svc.register email password salt
  | .login email password => svc.login email password
  | .seed users => svc.seedDemoUsers users

/-! ## Over the Dapr state store -/

namespace DaprStateUserRepository
variable {σ : Sig} (client : StateClient σ User)

/-- `user:{email}`. -/
def key (email : String) : String := "user:" ++ email

def readError (details : String) : Exn := .userRepositoryError ("Failed to read user: " ++ details)

def seedError (details : String) : Exn :=
  .userRepositoryError ("Failed to read user for seeding: " ++ details)

/-- The exception of a failed write. -/
def saveFailure : Exn → Exn
  | .rpcError details => .userRepositoryError ("Failed to save user: " ++ details)
  | e => e

def getByEmail (email : String) : Prog σ Exn (Option User) := do
  let (data, _) ← client.read readError (key email)
  return data

/-- An unconditional write. -/
def save (user : User) : Prog σ Exn Unit :=
  (client.executeStateTransaction [⟨key user.email, user, none⟩]).handle fun e => .raise (saveFailure e)

/-- Where the account is absent, write it; a lost race is no error. -/
def ensureSeeded (user : User) : Prog σ Exn Unit := do
  let (data, etag) ← client.read seedError (key user.email)
  match data with
  | some _ => return ()
  | none => client.write [⟨key user.email, user, some etag⟩] (return ())

theorem key_inj {e e' : String} : key e = key e' ↔ e = e' := String.append_right_inj "user:"

theorem getByEmail_eq (email : String) :
    getByEmail client email = (client.getState (key email)).attempt
      (StateClient.afterRead readError fun response => .ret response.1) := client.read_bind _ _ _

/-- What follows an unconditional write. -/
def afterSave : Except Exn Unit → Prog σ Exn Unit
  | .ok _ => .ret ()
  | .error e => .raise (saveFailure e)

theorem save_eq (user : User) :
    save client user =
      (client.executeStateTransaction [⟨key user.email, user, none⟩]).attempt afterSave := by
  rw [save, Prog.handle_eq]
  refine Prog.attempt_congr fun r => ?_
  cases r <;> rfl

theorem ensureSeeded_eq (user : User) :
    ensureSeeded client user = (client.getState (key user.email)).attempt
      (StateClient.afterRead seedError fun response => match response.1 with
        | some _ => .ret ()
        | none => (client.executeStateTransaction [⟨key user.email, user, some response.2⟩]).attempt
            (StateClient.afterWrite (.ret ()))) := by
  rw [ensureSeeded, client.read_bind]
  congr 2
  funext ⟨data, etag⟩
  cases data with
  | none => exact client.write_eq _ _
  | some data => rfl

end DaprStateUserRepository

def daprStateUserRepository {σ : Sig} (client : StateClient σ User) : UserRepository σ where
  getByEmail := DaprStateUserRepository.getByEmail client
  save := DaprStateUserRepository.save client
  ensureSeeded := DaprStateUserRepository.ensureSeeded client

/-- The service on one sidecar. -/
def daprAuth (derive : String → String → String) (jwtSecret : Option String)
    (createAccessToken : String → Role → String → String) : AuthService (storeSig User) where
  repository := daprStateUserRepository (storeClient User)
  derive := derive
  jwtSecret := jwtSecret
  createAccessToken := createAccessToken

end ApprovalFlow
