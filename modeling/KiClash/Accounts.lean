import KiClash.AsyncTasks
import KiClash.Purchases

/-!
# Accounts

The endpoints of auth.py with guest_auth.py, jwt_handler.py and get_current_player: guests,
registrations, logins and tokens, as coroutines over the table of players; and the sockets of both
servers, with verifyAccessToken of auth.go. A session collects
its write, which reaches the other sessions with its commit; that a session waits for another
one's row only restricts the order of the commits. The signature of the tokens and the hash of
the passwords are parameters, and so are the tokens themselves and whether the session is closed
before the response is sent or after it, which depends on the version of the framework. Of the
endpoints elsewhere only the authentication is modelled.
-/

namespace KiClash.Accounts

open EngineTypes AsyncTasks

section Parameters

/-- What a token says. -/
structure Payload where
  /-- sub. -/
  sub : Option String
  /-- exp, in seconds. -/
  exp : ℤ
  /-- type. -/
  type : Option String
  deriving DecidableEq, Repr

/-- The signatures of jwt.encode, jwt.decode and jwt.ParseWithClaims with the same key. -/
structure Jwt (Token : Type) where
  /-- The empty text. -/
  empty : Token
  /-- jwt.encode with the secret key. -/
  encode : Payload → Token
  encode_ne_empty : ∀ payload,encode payload≠empty
  /-- What a token says that bears a valid signature, or the text of the JWTError. -/
  signed : Token → Except String Payload
  signed_encode : ∀ payload,signed (encode payload)=.ok payload
  /-- What it says to the library of the other server, or the text of its error. -/
  parsed : Token → Except String Payload
  parsed_encode : ∀ payload,parsed (encode payload)=.ok payload

/-- pwd_context. -/
structure PwdContext where
  /-- pwd_context.hash, with the salt that it draws, or the text of its ValueError. -/
  hash : ℕ → String → Except String String
  /-- pwd_context.verify, or the text of its ValueError. -/
  verify : String → String → Except String Bool
  verify_hash : ∀ salt password passwordHash,hash salt password=.ok passwordHash →
    verify password passwordHash=.ok true

/-- What the endpoints rely on. -/
structure Server (Token : Type) where
  /-- The tokens. -/
  jwt : Jwt Token
  /-- The passwords. -/
  pwdContext : PwdContext
  /-- get_db commits before the response is sent. -/
  commitsFirst : Bool

end Parameters

section Tokens

/-- The exceptions. -/
inductive Exc
  | authenticationError (message : String)
  | notFoundError (resource resourceId : String)
  | validationError (message : String)
  | valueError (message : String)
  | multipleResultsFound
  | integrityError
  | databaseError
  | unauthorized (message : String)
  deriving DecidableEq, Repr

/-- settings.jwt_access_token_expire_minutes, in seconds. -/
def accessTokenExpire : ℤ := 60*24*7*60

/-- settings.jwt_refresh_token_expire_minutes, in seconds. -/
def refreshTokenExpire : ℤ := 60*24*30*60

variable {Token : Type} (server : Server Token)

/-- create_access_token. -/
def createAccessToken (now : ℤ) (playerId : UUID) : Token :=
  server.jwt.encode ⟨some playerId.text,now+accessTokenExpire,some "access"⟩

/-- create_refresh_token. -/
def createRefreshToken (now : ℤ) (playerId : UUID) : Token :=
  server.jwt.encode ⟨some playerId.text,now+refreshTokenExpire,some "refresh"⟩

/-- jwt.decode: the signature is checked, then the expiry. -/
def decode (now : ℤ) (token : Token) : Except Exc Payload :=
  match server.jwt.signed token with
  | .error message => .error (.authenticationError ("Invalid token: "++message))
  | .ok payload =>
    if payload.exp< now then .error (.authenticationError "Invalid token: Signature has expired.")
    else .ok payload

/-- verify_token. -/
def verifyToken (now : ℤ) (token : Token) (expectedType : String) : Except Exc UUID := do
  let payload ← decode server now token
  if payload.type≠some expectedType then
    .error (.authenticationError ("Expected "++expectedType++" token, got "++
      payload.type.getD "None"))
  else
    match payload.sub with
    | none => .error (.authenticationError "Token missing subject")
    | some sub =>
      match Purchases.uuid sub with
      | none => .error (.authenticationError "Invalid player ID in token")
      | some playerId => .ok playerId

/-- _authenticate_ws. -/
def authenticateWs (now : ℤ) (token : Token) : Except Exc UUID :=
  verifyToken server now token "access"

/-- jwt.ParseWithClaims: a token has expired from the second on that it names. -/
def parseWithClaims (now : ℤ) (token : Token) : Except String Payload :=
  match server.jwt.parsed token with
  | .error message => .error message
  | .ok payload =>
    if now<payload.exp then .ok payload
    else .error "token has invalid claims: token is expired"

/-- verifyAccessToken. A claim that is missing is read as the empty text. -/
def verifyAccessToken [DecidableEq Token] (now : ℤ) (token : Token) : Except String String :=
  if token=server.jwt.empty then .error "missing token"
  else
    match parseWithClaims server now token with
    | .error message => .error ("token parse: "++message)
    | .ok claims =>
      if claims.type.getD ""≠"access" then
        .error ("expected access token, got "++(claims.type.getD "").quote)
      else if claims.sub.getD ""="" then .error "token missing sub claim"
      else .ok (claims.sub.getD "")

end Tokens

section Operations

/-- A row of players; its other columns have their defaults. -/
structure Player where
  /-- The primary key. -/
  id : UUID
  /-- guest_token. -/
  guestToken : UUID
  /-- email. -/
  email : Option String
  /-- password_hash. -/
  passwordHash : Option String
  /-- display_name. -/
  displayName : String
  deriving DecidableEq

/-- TokenResponse. -/
structure TokenResponse (Token : Type) where
  /-- access_token. -/
  accessToken : Token
  /-- refresh_token. -/
  refreshToken : Token
  /-- token_type. -/
  tokenType : String
  /-- player_id. -/
  playerId : UUID
  /-- display_name. -/
  displayName : String
  deriving DecidableEq

/-- The write of a session. -/
inductive Write
  | insert (player : Player)
  | register (playerId : UUID) (email passwordHash : String)
  deriving DecidableEq

/-- A request, with what it draws. -/
inductive Request (Token : Type)
  | createGuestSession (id guestToken : UUID) (displayName : String)
  | register (token : Token) (email password : String) (salt : ℕ)
  | login (email password : String)
  | refreshToken (token : Token)
  | other (token : Token)
  | gameWs (token : Token)
  | gameWebsocket (token : Token)
  deriving DecidableEq

/-- A request of a client, with the times at which a token is checked and the new ones are
made. -/
structure Arrival (Token : Type) where
  /-- Who sends it. -/
  client : ℕ
  /-- What is sent. -/
  request : Request Token
  /-- The time of verify_token. -/
  verifiedAt : ℤ
  /-- The time of create_access_token. -/
  accessAt : ℤ
  /-- The time of create_refresh_token. -/
  refreshAt : ℤ
  deriving DecidableEq

/-- The operations: the queries, the flush and the commit of the session's write, the response
to a client, and the socket of a client, who is served as a player. -/
inductive AccountOp (Token : Type)
  | selectById (playerId : UUID)
  | selectByEmail (email : String)
  | flush (write : Write)
  | commit (write : Option Write)
  | answer (client : ℕ) (response : TokenResponse Token)
  | serve (client : ℕ) (playerId : String)
  deriving DecidableEq

/-- What they return. -/
abbrev AccountOp.Res {Token : Type} : AccountOp Token → Type
  | .selectById _ => Option Player
  | .selectByEmail _ => List Player
  | .flush _ | .commit _ | .answer _ _ | .serve _ _ => Unit

/-- The signature of the coroutines. -/
abbrev sig (Token : Type) : Signature := ⟨AccountOp Token,AccountOp.Res,Exc⟩

/-- A coroutine. -/
abbrev Coroutine (Token α : Type) := Prog (sig Token) α

variable {Token : Type}

/-- An operation. -/
def perform (o : AccountOp Token) : Coroutine Token o.Res :=
  Prog.perform (S := sig Token) o

/-- What has happened. -/
inductive Event (Token : Type)
  | arrived (task : ℕ) (arrival : Arrival Token)
  | performed (task : ℕ) (o : AccountOp Token)
  deriving DecidableEq

/-- The committed rows, and what has happened, which the source does not keep. -/
structure World (Token : Type) where
  /-- The table of players. -/
  players : List Player
  /-- What has happened. -/
  log : List (Event Token)

/-- The row gets an email and a password. -/
def registered (playerId : UUID) (email passwordHash : String) (player : Player) : Player :=
  if player.id=playerId then {player with email := some email,passwordHash := some passwordHash}
  else player

/-- A unique column of another row has the value that is written. -/
def conflicts (players : List Player) : Write → Bool
  | .insert player => players.any fun other =>
    other.id=player.id || other.guestToken=player.guestToken
  | .register playerId email _ => players.any fun other =>
    other.id≠playerId && other.email=some email

/-- A write reaches the table. -/
def written (players : List Player) : Write → List Player
  | .insert player => players++[player]
  | .register playerId email passwordHash => players.map (registered playerId email passwordHash)

/-- What an operation does to the table when nothing fails. -/
def effect (players : List Player) : (o : AccountOp Token) → List Player×Except Exc o.Res
  | .selectById playerId => (players,.ok (players.find? fun player => player.id=playerId))
  | .selectByEmail email => (players,.ok (players.filter fun player => player.email=some email))
  | .flush write =>
    if conflicts players write then (players,.error .integrityError) else (players,.ok ())
  | .commit none => (players,.ok ())
  | .commit (some write) =>
    if conflicts players write then (players,.error .integrityError)
    else (written players write,.ok ())
  | .answer _ _ | .serve _ _ => (players,.ok ())

/-- An operation takes place. -/
def World.after (world : World Token) (task : ℕ) (o : AccountOp Token) :
    World Token×Except Exc o.Res :=
  match effect world.players o with
  | (players,.ok res) => (⟨players,world.log++[.performed task o]⟩,.ok res)
  | (_,.error exc) => (world,.error exc)

/-- How an operation turns out: it completes, or it fails before or after it has taken
effect. -/
inductive Outcome
  | proceeds | failsBefore | failsAfter
  deriving DecidableEq, Repr

end Operations

section Endpoints

variable {Token : Type} (server : Server Token)

/-- What a check has found, or its exception. -/
def ofExcept {α : Type} (result : Except Exc α) : Coroutine Token α := .done result

/-- result.scalar_one_or_none. -/
def scalarOneOrNone : List Player → Coroutine Token (Option Player)
  | [] => pure none
  | [player] => pure (some player)
  | _ => .raise .multipleResultsFound

/-- _token_response. -/
def tokenResponse (accessAt refreshAt : ℤ) (player : Player) : TokenResponse Token :=
  ⟨createAccessToken server accessAt player.id,createRefreshToken server refreshAt player.id,
    "bearer",player.id,player.displayName⟩

/-- get_current_player. -/
def getCurrentPlayer (now : ℤ) (token : Token) : Coroutine Token Player := do
  let playerId ← ofExcept (verifyToken server now token "access")
  match ← perform (.selectById playerId) with
  | none => .raise (.notFoundError "Player" playerId.text)
  | some player => pure player

/-- create_guest. -/
def createGuest (id guestToken : UUID) (displayName : String) : Coroutine Token Player := do
  let player : Player := ⟨id,guestToken,none,none,displayName⟩
  perform (.flush (.insert player))
  pure player

/-- register_player. -/
def registerPlayer (player : Player) (email password : String) (salt : ℕ) :
    Coroutine Token Player := do
  if player.email.isSome then .raise (.valueError "Player already has an email registered")
  else
    let existing ← (perform (.selectByEmail email) >>= scalarOneOrNone)
    if existing.isSome then .raise (.valueError "Email already registered")
    else
      let passwordHash ← ofExcept ((server.pwdContext.hash salt password).mapError .valueError)
      perform (.flush (.register player.id email passwordHash))
      pure {player with email := some email,passwordHash := some passwordHash}

/-- authenticate_by_email. -/
def authenticateByEmail (email password : String) : Coroutine Token (Option Player) := do
  match ← (perform (.selectByEmail email) >>= scalarOneOrNone) with
  | none => pure none
  | some player =>
    match player.passwordHash with
    | none => pure none
    | some passwordHash =>
      let verified ←
        ofExcept ((server.pwdContext.verify password passwordHash).mapError .valueError)
      pure (if verified then some player else none)

/-- What the session of a registration has to commit. -/
def changes (player : Player) : Option Write := do
  let email ← player.email
  let passwordHash ← player.passwordHash
  some (.register player.id email passwordHash)

/-- The end of an endpoint: the response is made, and the session is closed before or after it
is sent. -/
def respond (arrival : Arrival Token) (player : Player) (write : Option Write) :
    Coroutine Token Unit := do
  let response := tokenResponse server arrival.accessAt arrival.refreshAt player
  if server.commitsFirst then
    perform (.commit write)
    perform (.answer arrival.client response)
  else
    perform (.answer arrival.client response)
    perform (.commit write)

/-- The endpoint of a request. -/
def handler [DecidableEq Token] (arrival : Arrival Token) : Coroutine Token Unit :=
  match arrival.request with
  | .createGuestSession id guestToken displayName => do
    let player ← createGuest id guestToken displayName
    respond server arrival player (some (.insert player))
  | .register token email password salt => do
    let player ← getCurrentPlayer server arrival.verifiedAt token
    let player ← (registerPlayer server player email password salt).handle fun
      | .valueError message => .raise (.validationError message)
      | exc => .raise exc
    respond server arrival player (changes player)
  | .login email password => do
    match ← authenticateByEmail server email password with
    | none => .raise (.authenticationError "Invalid email or password")
    | some player => respond server arrival player none
  | .refreshToken token => do
    let playerId ← ofExcept (verifyToken server arrival.verifiedAt token "refresh")
    match ← perform (.selectById playerId) with
    | none => .raise (.authenticationError "Player not found")
    | some player => respond server arrival player none
  | .other token => do
    let _ ← getCurrentPlayer server arrival.verifiedAt token
    perform (.commit none)
  | .gameWs token => do
    let playerId ← ofExcept (authenticateWs server arrival.verifiedAt token)
    perform (.serve arrival.client playerId.text)
  | .gameWebsocket token => do
    let playerId ← ofExcept ((verifyAccessToken server arrival.verifiedAt token).mapError
      fun message => .unauthorized ("unauthorized: "++message))
    perform (.serve arrival.client playerId)

/-- The token that a request presents. -/
def Request.token : Request Token → Option Token
  | .register token _ _ _ | .refreshToken token | .other token | .gameWs token |
    .gameWebsocket token => some token
  | .createGuestSession _ _ _ | .login _ _ => none

/-- The client has received the token. -/
def holds [DecidableEq Token] (log : List (Event Token)) (client : ℕ) (token : Token) : Bool :=
  log.any fun
    | .performed _ (.answer client' response) =>
      client'=client && (response.accessToken=token || response.refreshToken=token)
    | _ => false

/-- The identifier that uuid4 has drawn for a guest. -/
def drawn : Event Token → Option UUID
  | .arrived _ ⟨_,.createGuestSession id _ _,_,_,_⟩ => some id
  | _ => none

/-- A client can send the request: nobody can sign a token without the key or gets to know
somebody else's, and uuid4 draws no identifier twice. -/
def possible [DecidableEq Token] (log : List (Event Token)) (arrival : Arrival Token) : Bool :=
  (arrival.request.token.all fun token =>
    !((server.jwt.signed token).isOk || (server.jwt.parsed token).isOk) ||
      holds log arrival.client token) &&
  match arrival.request with
  | .createGuestSession id _ _ => id∉log.filterMap drawn
  | _ => true

/-- The requests as tasks. -/
abbrev requests [DecidableEq Token] : System (sig Token) where
  World := World Token
  Choice := Outcome
  Entry := Arrival Token
  body := handler server
  perform outcome task _ o world :=
    some <| match outcome with
      | .proceeds => ((world.after task o).1,(world.after task o).2,none)
      | .failsBefore => (world,.error .databaseError,none)
      | .failsAfter => ((world.after task o).1,.error .databaseError,none)
  arrive task arrival world :=
    if possible server world.log arrival then
      some ⟨world.players,world.log++[.arrived task arrival]⟩
    else none

/-- The empty table. -/
def initial [DecidableEq Token] : (requests server).Config := ⟨⟨[],[]⟩,[]⟩

end Endpoints

end KiClash.Accounts
