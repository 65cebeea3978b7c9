import SevenMirror.Basic
import SevenMirror.Lib.BigEndian
import SevenMirror.Lib.Reject
import SevenMirror.Lib.Text

/-! The administrator account of `internal/adminweb`: the password hash, the second factor, and what
the registry stores of them.  The cryptographic functions are parameters. -/

namespace SevenMirror.Console

open Lib

/-- SHA-256, HMAC-SHA-1 and scrypt.  `scrypt` takes the password, the salt, the three costs, and the
length of the key. -/
structure Primitives where
  sha256 : Bytes → Block 32
  hmacSha1 : Bytes → Bytes → Block 20
  scrypt : Bytes → Bytes → Int → Int → Int → Nat → Option Bytes

variable (prim : Primitives)

def constantTimeEquals (left right : Bytes) : Bool := prim.sha256 left = prim.sha256 right

/-! ### The second factor -/

def totpStepSeconds : Int := 30

def totpDigits : Nat := 6

def totpModulus : Nat := 1000000

/-- `encodeTOTPSecret`. -/
def encodeTOTPSecret (secret : Bytes) : Bytes := encodeBase32 secret

/-- `strings.ToUpper`, as far as a text of the base32 alphabet can come of it: besides the small
letters of ASCII only U+0131 and U+017F have an ASCII capital. -/
def toUpper : Bytes → Bytes
  | 0xc4 :: 0xb1 :: rest => 0x49 :: toUpper rest
  | 0xc5 :: 0xbf :: rest => 0x53 :: toUpper rest
  | c :: rest => (if 0x61 ≤ c ∧ c ≤ 0x7a then c - 0x20 else c) :: toUpper rest
  | [] => []

def parseTOTPSecret (encoded : Bytes) : Option Bytes := do
  let normalized := trimRight 0x3d (toUpper ((trimSpace encoded).filter (· != 0x20)))
  let secret ← decodeBase32 normalized
  if secret.length < 16 then none else some secret

/-- The seconds of the moment, divided by the step and rounded towards zero. -/
def totpCounter (moment : Time) : Int := (moment.nanos / 1000000000).tdiv totpStepSeconds

/-- The six digits for one step. -/
def totpCode (secret : Bytes) (counter : Int) : Bytes :=
  let sum := (prim.hmacSha1 secret (toBigEndian 8 (counter % 0x10000000000000000).toNat)).bytes
  let offset := (sum.getD 19 0 &&& 0x0f).toNat
  let truncated := ofBigEndian (slice sum offset 4) % 0x80000000
  decimal totpDigits (truncated % totpModulus)

structure TotpVerifier where
  secret : Bytes
  newest : Int
  armed : Bool
deriving DecidableEq, Repr

def newTOTPVerifier (secret : Bytes) : TotpVerifier := ⟨secret, 0, false⟩

/-- The loop over the steps around `current`: the last step whose code matches, among those past the
newest step accepted so far. -/
def TotpVerifier.matched (v : TotpVerifier) (candidate : Bytes) (current : Int) : Option Int :=
  [current - 1, current, current + 1].foldl (fun matched counter =>
    if v.armed ∧ counter ≤ v.newest then matched
    else if totpCode prim v.secret counter = candidate then some counter
    else matched) none

def TotpVerifier.verify (v : TotpVerifier) (presented : Bytes) (moment : Time) :
    TotpVerifier × Bool :=
  let candidate := trimSpace presented
  if candidate.length ≠ totpDigits ∨ ¬ candidate.all isDigit then (v, false)
  else
    match v.matched prim candidate (totpCounter moment) with
    | none => (v, false)
    | some counter => ({ v with newest := counter, armed := true }, true)

theorem TotpVerifier.verify_secret {prim : Primitives} (v : TotpVerifier) (presented : Bytes)
    (moment : Time) : (v.verify prim presented moment).1.secret = v.secret := by
  unfold TotpVerifier.verify
  simp only
  split
  · rfl
  · split <;> rfl

/-! ### The password -/

structure PasswordHash where
  logN : Int
  r : Int
  p : Int
  salt : Bytes
  digest : Bytes
deriving DecidableEq, Repr

/-- The value of the last parameter of that name. -/
def parameter (values : List (Bytes × Int)) (name : Bytes) : Option Int :=
  (values.reverse.find? (·.1 == name)).map (·.2)

/-- `name=value` with an integer value. -/
def parseParameter (text : Bytes) : Option (Bytes × Int) := do
  let (name, value) ← cut 0x3d text
  return (name, ← atoi value)

def parsePasswordHash (encoded : Bytes) : Option PasswordHash :=
  match splitOn 0x24 encoded with
  | [[], scheme, costs, salt, digest] => do
    guard (scheme = "scrypt".toUTF8.toList)
    let parameters := splitOn 0x2c costs
    guard (parameters.length = 3)
    let values ← parameters.mapM parseParameter
    let logN ← parameter values "ln".toUTF8.toList
    let r ← parameter values "r".toUTF8.toList
    let p ← parameter values "p".toUTF8.toList
    guard (10 ≤ logN ∧ logN ≤ 20 ∧ 1 ≤ r ∧ r ≤ 32 ∧ 1 ≤ p ∧ p ≤ 8)
    let salt ← decodeBase64 salt
    guard (16 ≤ salt.length)
    let digest ← decodeBase64 digest
    guard (32 ≤ digest.length)
    return ⟨logN, r, p, salt, digest⟩
  | _ => none

def PasswordHash.matches (h : PasswordHash) (password : Bytes) : Bool :=
  match prim.scrypt password h.salt h.logN h.r h.p h.digest.length with
  | none => false
  | some candidate => candidate = h.digest

/-- The text stored for a new password with the given salt. -/
def hashPassword (password salt : Bytes) : Option Bytes := do
  let digest ← prim.scrypt password salt 15 8 1 32
  return "$scrypt$ln=15,r=8,p=1$".toUTF8.toList ++ encodeBase64 salt ++ [0x24] ++
    encodeBase64 digest

/-! ### The account -/

def defaultAdministratorName : Bytes := "admin".toUTF8.toList

def defaultAdministratorPassword : Bytes := "sevenmirror".toUTF8.toList

/-- The row of `administrator_credentials`. -/
structure AdministratorCredential where
  name : Bytes
  passwordHash : Bytes
  totpSecret : Bytes
  updatedAt : Time
deriving DecidableEq, Repr

/-- `secondFactor` is the address of a verifier. -/
structure Account where
  name : Bytes
  hash : PasswordHash
  secret : Bytes
  secondFactor : Option Nat
  updatedAt : Time
  initialized : Bool
deriving DecidableEq, Repr

def defaultAccount : Account where
  name := defaultAdministratorName
  hash := ⟨0, 0, 0, [], []⟩
  secret := []
  secondFactor := none
  updatedAt := ⟨-62135596800000000000⟩
  initialized := false

def printableName (name : Bytes) : Bool := name.all fun c => ¬ (c ≤ 0x20 ∨ c = 0x7f)

def validAccountName (name : Bytes) : Bool :=
  ¬ (name = [] ∨ name.length > 64 ∨ ¬ printableName name)

def hasControlCharacter (value : Bytes) : Bool := value.any fun c => c < 0x20 ∨ c = 0x7f

def validNewPassword (password : Bytes) : Bool :=
  ¬ (password.length < 12 ∨ password.length > 256 ∨ trimSpace password = [] ∨
    hasControlCharacter password ∨ constantTimeEquals prim password defaultAdministratorPassword)

/-- The account of a stored row.  Its verifier is new, at the given address. -/
def accountFromCredential (credential : AdministratorCredential) (secondFactor : Nat) :
    Option Account := do
  let name := trimSpace credential.name
  guard (validAccountName name)
  let hash ← parsePasswordHash credential.passwordHash
  let secret ← parseTOTPSecret credential.totpSecret
  return ⟨name, hash, secret, some secondFactor, credential.updatedAt, true⟩

def Account.nameMatches (a : Account) (candidate : Bytes) : Bool :=
  if a.initialized then constantTimeEquals prim candidate a.name
  else constantTimeEquals prim candidate defaultAdministratorName

def Account.passwordMatches (a : Account) (password : Bytes) : Bool :=
  if a.initialized then a.hash.matches prim password
  else constantTimeEquals prim password defaultAdministratorPassword

def validAdministratorCredential (credential : AdministratorCredential) : Bool :=
  ¬ (credential.name.length = 0 ∨ credential.name.length > 64 ∨
    credential.passwordHash.length = 0 ∨ credential.passwordHash.length > 512 ∨
    credential.totpSecret.length = 0 ∨ credential.totpSecret.length > 128)

end SevenMirror.Console
