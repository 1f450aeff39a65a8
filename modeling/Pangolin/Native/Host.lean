import Pangolin.Lib.Framing
import Pangolin.Lib.Fallible
import Pangolin.Store.Identity

/-!
# The native-messaging host

The browser starts the host for the extension.  The host takes one frame from its standard input,
checks the token in it, connects to the desktop and from there on carries frames both ways.  The
browser, the host and the desktop take their steps in any order; what one writes the next reads
through a pipe.

The JSON and base64 libraries are parameters, and so are the place of the token and what the
desktop answers.
-/

namespace Pangolin.Native

open Framing Utf8

/-! ## JSON -/

inductive Json where
  | null
  | bool (value : Bool)
  | number (value : Int)
  | string (value : String)
  | array (items : List Json)
  | object (members : List (String × Json))
  deriving Repr

/-- `Value` indexed by a key; a member that is missing is null. -/
def Json.get : Json → String → Json
  | .object members, key => ((members.find? fun entry => entry.1 = key).map Prod.snd).getD .null
  | _, _ => .null

def Json.asString? : Json → Option String
  | .string value => some value
  | _ => none

def Json.isNull : Json → Bool
  | .null => true
  | _ => false

/-- A reader and a writer of JSON. -/
structure Codec where
  parse : List UInt8 → Option Json
  render : Json → List UInt8

/-- What one writes the other reads. -/
def Codec.Understands (reader writer : Codec) : Prop :=
  ∀ value, reader.parse (writer.render value) = some value

/-! ## Errors -/

inductive HostError where
  | frameLengthRead
  | frameOversize (length : Nat)
  | frameBodyRead
  | jsonParse
  | invalidRequest (reason : String)
  | authFailed
  | authLoadFailed
  | ipcConnectFailed
  deriving Repr, DecidableEq

def HostError.ofFrame : FrameError → HostError
  | .lengthRead => .frameLengthRead
  | .oversize length => .frameOversize length
  | .bodyRead => .frameBodyRead

def HostError.jsonrpcCode : HostError → Int
  | .frameLengthRead | .frameOversize _ | .frameBodyRead => -32004
  | .jsonParse => -32700
  | .invalidRequest _ => -32600
  | .authFailed => -32001
  | .authLoadFailed => -32005
  | .ipcConnectFailed => -32006

def HostError.jsonrpcMessage : HostError → String
  | .frameLengthRead | .frameOversize _ | .frameBodyRead => "frame_invalid"
  | .jsonParse => "parse_error"
  | .invalidRequest _ => "invalid_request"
  | .authFailed => "auth_failed"
  | .authLoadFailed => "auth_load_failed"
  | .ipcConnectFailed => "ipc_connect_failed"

def HostError.toJsonrpcError (error : HostError) : Json :=
  .object [("code", .number error.jsonrpcCode), ("message", .string error.jsonrpcMessage),
    ("data", .null)]

/-- What `emit_error_frame` writes without an id. -/
def errorEnvelope (error : HostError) : Json :=
  .object [("jsonrpc", .string "2.0"), ("id", .null), ("error", error.toJsonrpcError)]

/-! ## The token -/

/-- `TOKEN_LEN`. -/
def tokenLen : Nat := 32

/-- The keychain's entry and the token file, where they can be read. -/
structure TokenSource where
  keychain : Option String
  file : Option (List UInt8)
  deriving Repr, DecidableEq

/-- `serde_json`, and the decoder of `URL_SAFE_NO_PAD`. -/
structure Libraries where
  serde : Codec
  base64 : String → Option (List UInt8)

section

variable (libraries : Libraries)

/-- `decode_token_b64`. -/
def decodeTokenB64 (text : String) : Except HostError (List UInt8) :=
  match libraries.base64 text with
  | none => .error .authLoadFailed
  | some raw => if raw.length ≠ tokenLen then .error .authLoadFailed else .ok raw

/-- The token of the sibling file. -/
def loadTokenFile (file : Option (List UInt8)) : Except HostError (List UInt8) :=
  match file with
  | none => .error .authLoadFailed
  | some bytes =>
      match decode? bytes with
      | none => .error .authLoadFailed
      | some text => decodeTokenB64 libraries (String.ofList (Store.trim text))

/-- `load_expected_token`: a keychain entry that is no token gives way to the file. -/
def loadExpectedToken (source : TokenSource) : Except HostError (List UInt8) :=
  match source.keychain.map (decodeTokenB64 libraries) with
  | some (.ok token) => .ok token
  | _ => loadTokenFile libraries source.file

/-- `verify_token_b64`. -/
def verifyTokenB64 (presented : String) (expected : List UInt8) : Except HostError Unit :=
  if expected.length ≠ tokenLen then
    .error .authFailed
  else
    match libraries.base64 presented with
    | none => .error .authFailed
    | some raw =>
        if raw.length ≠ tokenLen then .error .authFailed
        else if raw = expected then .ok ()
        else .error .authFailed

/-! ## The handshake -/

/-- The result `do_handshake` writes. -/
def handshakeResult : Json :=
  .object [("host_version", .string "0.0.0"), ("protocol_version", .number 1)]

def handshakeResponse (id : Json) : Json :=
  .object [("jsonrpc", .string "2.0"), ("id", id), ("result", handshakeResult)]

/-- `do_handshake` between its frames: the body it read, and the response it writes. -/
def checkHandshake (source : TokenSource) (body : List UInt8) : Except HostError Json :=
  match libraries.serde.parse body with
  | none => .error .jsonParse
  | some request =>
      if (request.get "jsonrpc").asString? ≠ some "2.0" then
        .error (.invalidRequest "jsonrpc != 2.0")
      else if (request.get "id").isNull then
        .error (.invalidRequest "missing id")
      else if (request.get "method").asString? ≠ some "auth.handshake" then
        .error (.invalidRequest "first method must be auth.handshake")
      else
        match ((request.get "params").get "token").asString? with
        | none => .error (.invalidRequest "missing params.token")
        | some presented => do
            let expected ← loadExpectedToken libraries source
            verifyTokenB64 libraries presented expected
            return handshakeResponse (request.get "id")

/-! ## The bridge -/

/-- `MAX_FRAME_BYTES`. -/
def maxFrameBytes : Nat := 1024 * 1024

inductive Phase where
  | handshake
  | relaying
  | exited (code : Nat)
  deriving Repr, DecidableEq

/-- The browser's pipes, the host, and the connection to the desktop.  The last four fields record
what went through. -/
structure Bridge (D : Type) where
  stdin : Pipe
  stdout : Pipe
  phase : Phase
  /-- From the host to the desktop. -/
  requests : Pipe
  /-- From the desktop to the host. -/
  responses : Pipe
  /-- The desktop's handler of the connection runs. -/
  serving : Bool
  desktop : D
  sent : List UInt8
  shown : List UInt8
  relayed : List UInt8
  handled : List (List UInt8 × List UInt8)

def Bridge.start {D : Type} (desktop : D) : Bridge D :=
  ⟨.empty, .empty, .handshake, .empty, .empty, false, desktop, [], [], [], []⟩

/-- One step of one of the parties. -/
inductive Op (D : Type) where
  /-- The extension's side writes to the host. -/
  | write (bytes : List UInt8)
  | closeStdin
  /-- The browser takes a frame of what the host wrote. -/
  | receive
  /-- The host reads its first frame; the connection to the desktop may fail. -/
  | handshake (connects : Bool)
  /-- The host carries a frame to the desktop. -/
  | forward
  /-- The host carries a frame to the browser. -/
  | back
  /-- The desktop takes a request and answers it. -/
  | serve
  | desktopQuits
  /-- The desktop changes state by itself, by its user's doing. -/
  | desktopActs (desktop : D)
  /-- The browser ends the host, or a write to the browser fails. -/
  | kill

namespace Bridge

variable {D : Type} (bridge : Bridge D)

/-- The host ends; its ends of the pipes close. -/
def exit (code : Nat) : Bridge D :=
  { bridge with
    phase := .exited code
    stdout := bridge.stdout.close
    requests := bridge.requests.close }

def print (bytes : List UInt8) : Bridge D :=
  { bridge with stdout := bridge.stdout.write bytes, shown := bridge.shown ++ bytes }

/-- `connect`, and the desktop's handler of the new connection. -/
def connect : Bridge D := { bridge with phase := .relaying, serving := true }

/-- `emit_error_frame`, and the end of the process. -/
def fail (error : HostError) : Bridge D :=
  match writeFrame maxFrameBytes (libraries.serde.render (errorEnvelope error)) with
  | none => bridge.exit 1
  | some bytes => (bridge.print bytes).exit 1

/-- The first phases of `run_host`: the handshake and the connection. -/
def greet (source : TokenSource) (connects : Bool) : Bridge D :=
  match readFrame maxFrameBytes bridge.stdin with
  | none => bridge
  | some (.error error, stdin) => ({ bridge with stdin } : Bridge D).fail libraries (.ofFrame error)
  | some (.ok body, stdin) =>
      match checkHandshake libraries source body with
      | .error error => ({ bridge with stdin } : Bridge D).fail libraries error
      | .ok response =>
          match writeFrame maxFrameBytes (libraries.serde.render response) with
          | none => ({ bridge with stdin } : Bridge D).fail libraries
              (.frameOversize (libraries.serde.render response).length)
          | some bytes =>
              if connects then
                (({ bridge with stdin } : Bridge D).print bytes).connect
              else
                (({ bridge with stdin } : Bridge D).print bytes).fail libraries .ipcConnectFailed

/-- A round of the task that reads standard input. -/
def forward : Bridge D :=
  match readFrame maxFrameBytes bridge.stdin with
  | none => bridge
  | some (.error .lengthRead, stdin) => ({ bridge with stdin } : Bridge D).exit 0
  | some (.error _, stdin) => ({ bridge with stdin } : Bridge D).exit 1
  | some (.ok body, stdin) =>
      if bridge.serving then
        { bridge with
          stdin
          requests := bridge.requests.write (frame body)
          relayed := bridge.relayed ++ frame body }
      else
        ({ bridge with stdin } : Bridge D).exit 1

/-- A round of the task that reads the connection. -/
def back : Bridge D :=
  match readFrame maxFrameBytes bridge.responses with
  | none => bridge
  | some (.error .lengthRead, responses) => ({ bridge with responses } : Bridge D).exit 0
  | some (.error _, responses) => ({ bridge with responses } : Bridge D).exit 1
  | some (.ok body, responses) => ({ bridge with responses } : Bridge D).print (frame body)

/-- The desktop's handler ends. -/
def hangUp : Bridge D :=
  { bridge with serving := false, responses := bridge.responses.close }

/-- A round of the desktop's `handle_connection`. -/
def serve (answer : D → List UInt8 → D × List UInt8) : Bridge D :=
  match readFrame maxFrameBytes bridge.requests with
  | none => bridge
  | some (.error _, requests) => ({ bridge with requests } : Bridge D).hangUp
  | some (.ok body, requests) =>
      let (desktop, response) := answer bridge.desktop body
      let served : Bridge D :=
        { bridge with requests, desktop, handled := bridge.handled ++ [(body, response)] }
      match writeFrame maxFrameBytes response with
      | none => served.hangUp
      | some bytes =>
          -- A host that is gone does not read the answer.
          if bridge.phase = .relaying then
            { served with responses := served.responses.write bytes }
          else
            served.hangUp

/-- One step. -/
def step (source : TokenSource) (answer : D → List UInt8 → D × List UInt8) (bridge : Bridge D) :
    Op D → Bridge D
  | .write bytes =>
      if bridge.stdin.closed then bridge
      else { bridge with stdin := bridge.stdin.write bytes, sent := bridge.sent ++ bytes }
  | .closeStdin => { bridge with stdin := bridge.stdin.close }
  | .receive =>
      match readFrame maxFrameBytes bridge.stdout with
      | some (.ok _, stdout) => { bridge with stdout }
      | _ => bridge
  | .handshake connects =>
      if bridge.phase = .handshake then bridge.greet libraries source connects else bridge
  | .forward => if bridge.phase = .relaying then bridge.forward else bridge
  | .back => if bridge.phase = .relaying then bridge.back else bridge
  | .serve => if bridge.serving then bridge.serve answer else bridge
  | .desktopQuits => bridge.hangUp
  | .desktopActs desktop => { bridge with desktop }
  | .kill =>
      match bridge.phase with
      | .exited _ => bridge
      | _ => bridge.exit 1

end Bridge

end

end Pangolin.Native
