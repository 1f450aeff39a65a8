import Pangolin.Native.Host

/-!
# What the host carries

Whatever the order of the steps, nothing reaches the desktop before a handshake with the right
token, and what reaches it then is what the extension wrote after that frame, frame by frame.  The
desktop's answers come back the same way.
-/

namespace Pangolin.Native

open Framing

variable {D : Type}

/-! ## The handshake -/

/-- A first frame the host accepts: a handshake call that carries the expected token. -/
structure Authentic (libraries : Libraries) (source : TokenSource) (first : List UInt8)
    (response : Json) : Prop where
  call : ∃ request presented token, libraries.serde.parse first = some request ∧
    (request.get "jsonrpc").asString? = some "2.0" ∧
    (request.get "method").asString? = some "auth.handshake" ∧
    (request.get "id").isNull = false ∧
    ((request.get "params").get "token").asString? = some presented ∧
    loadExpectedToken libraries source = .ok token ∧ token.length = tokenLen ∧
    libraries.base64 presented = some token ∧ response = handshakeResponse (request.get "id")

theorem verifyTokenB64_ok {libraries : Libraries} {presented : String} {expected : List UInt8}
    (verified : verifyTokenB64 libraries presented expected = .ok ()) :
    expected.length = tokenLen ∧ libraries.base64 presented = some expected := by
  unfold verifyTokenB64 at verified
  split_ifs at verified with short
  cases decoded : libraries.base64 presented with
  | none =>
      rw [decoded] at verified
      cases verified
  | some raw =>
      rw [decoded] at verified
      dsimp only at verified
      split_ifs at verified with _ same
      exact ⟨not_not.mp short, congrArg some same⟩

theorem checkHandshake_ok {libraries : Libraries} {source : TokenSource} {first : List UInt8}
    {response : Json} (checked : checkHandshake libraries source first = .ok response) :
    Authentic libraries source first response := by
  unfold checkHandshake at checked
  cases parsed : libraries.serde.parse first with
  | none =>
      rw [parsed] at checked
      cases checked
  | some request =>
      rw [parsed] at checked
      dsimp only at checked
      split_ifs at checked with version known method
      cases given : ((request.get "params").get "token").asString? with
      | none =>
          rw [given] at checked
          cases checked
      | some presented =>
          rw [given] at checked
          obtain ⟨token, loaded, checked⟩ := Fallible.bind_eq_ok_iff.mp checked
          obtain ⟨_, verified, same⟩ := Fallible.bind_eq_ok_iff.mp checked
          cases same
          obtain ⟨size, decoded⟩ := verifyTokenB64_ok verified
          exact ⟨request, presented, token, parsed, not_not.mp version, not_not.mp method,
            Bool.not_eq_true _ ▸ known, given, loaded, size, decoded, rfl⟩

/-! ## The stages of a connection -/

/-- A host that has not read its first frame. -/
structure Before (bridge : Bridge D) : Prop where
  phase : bridge.phase = .handshake
  sent : bridge.sent = bridge.stdin.bytes
  shown : bridge.shown = []
  relayed : bridge.relayed = []
  handled : bridge.handled = []
  serving : bridge.serving = false
  requests : bridge.requests.bytes = []
  responses : bridge.responses.bytes = []

/-- A first frame that was accepted, with the result that was written, both of a frame's size. -/
structure Accepted (libraries : Libraries) (source : TokenSource) (first : List UInt8)
    (response : Json) : Prop where
  authentic : Authentic libraries source first response
  first : first.length ≤ maxFrameBytes
  response : (libraries.serde.render response).length ≤ maxFrameBytes

/-- What a host writes by itself: nothing, an error, or the handshake's result and an error. -/
def Greeting (libraries : Libraries) (source : TokenSource) (sent : List UInt8)
    (bodies : List (List UInt8)) : Prop :=
  (∃ errors : List HostError, errors.length ≤ 1 ∧
    bodies = errors.map fun error => libraries.serde.render (errorEnvelope error)) ∨
  ∃ first response, Accepted libraries source first response ∧ frame first <+: sent ∧
    ∃ errors : List HostError, errors.length ≤ 1 ∧
      bodies = libraries.serde.render response ::
        errors.map fun error => libraries.serde.render (errorEnvelope error)

/-- A host that ended without a connection. -/
structure Refused (libraries : Libraries) (source : TokenSource) (bridge : Bridge D) : Prop where
  phase : ∃ code, bridge.phase = .exited code
  relayed : bridge.relayed = []
  handled : bridge.handled = []
  serving : bridge.serving = false
  shown : ∃ bodies, bridge.shown = frames bodies ∧ Greeting libraries source bridge.sent bodies ∧
    ∀ body ∈ bodies, body.length ≤ maxFrameBytes

/-- What the desktop answered and what of it came back. -/
structure Answered (bridge : Bridge D) (returned answers : List (List UInt8)) : Prop where
  given : answers <+: bridge.handled.map Prod.snd
  carried : returned <+: answers
  bounded : ∀ body ∈ answers, body.length ≤ maxFrameBytes
  /-- While both ends are there the desktop's last answer is on its way. -/
  whole : bridge.phase = .relaying → bridge.serving = true →
    answers = bridge.handled.map Prod.snd
  /-- What the host has not read is what it has not carried back. -/
  coming : bridge.phase = .relaying → ∃ coming, bridge.responses.bytes = frames coming ∧
    answers = returned ++ coming

/-- A host with a connection: the frames it carried to the desktop and back. -/
structure Talking (libraries : Libraries) (source : TokenSource) (bridge : Bridge D)
    (forwarded returned : List (List UInt8)) : Prop where
  greeted : bridge.phase ≠ .handshake
  /-- The first frame, and the others behind it. -/
  opened : ∃ first response, Accepted libraries source first response ∧
    frame first ++ frames forwarded <+: bridge.sent ∧
    (bridge.phase = .relaying →
      bridge.sent = frame first ++ frames forwarded ++ bridge.stdin.bytes) ∧
    bridge.shown = frame (libraries.serde.render response) ++ frames returned
  bounded : ∀ body ∈ forwarded, body.length ≤ maxFrameBytes
  relayed : bridge.relayed = frames forwarded
  handled : bridge.handled.map Prod.fst <+: forwarded
  /-- What the desktop has not read is what it has not handled. -/
  waiting : bridge.serving = true → ∃ waiting, bridge.requests.bytes = frames waiting ∧
    forwarded = bridge.handled.map Prod.fst ++ waiting
  answered : ∃ answers, Answered bridge returned answers

/-- The stages a bridge can be in. -/
inductive Stage (libraries : Libraries) (source : TokenSource) (bridge : Bridge D) : Prop where
  | before : Before bridge → Stage libraries source bridge
  | refused : Refused libraries source bridge → Stage libraries source bridge
  | talking (forwarded returned : List (List UInt8)) :
      Talking libraries source bridge forwarded returned → Stage libraries source bridge

section

variable {libraries : Libraries} {source : TokenSource}
variable {answer : D → List UInt8 → D × List UInt8} {bridge : Bridge D}
variable {forwarded returned : List (List UInt8)}

theorem maxFrameBytes_small : maxFrameBytes < 2 ^ 32 := by decide

theorem Before.start (desktop : D) : Before (Bridge.start desktop) := by
  constructor <;> rfl

/-! ## The handshake's step -/

/-- A host that fails has written an error or nothing. -/
theorem fail_shown (libraries : Libraries) (bridge : Bridge D) (error : HostError) :
    ∃ errors : List HostError, errors.length ≤ 1 ∧
      (bridge.fail libraries error).shown = bridge.shown ++
        frames (errors.map fun error => libraries.serde.render (errorEnvelope error)) ∧
      ∀ error ∈ errors, (libraries.serde.render (errorEnvelope error)).length ≤ maxFrameBytes := by
  unfold Bridge.fail
  split
  · exact ⟨[], Nat.zero_le _, (List.append_nil _).symm, fun _ none => absurd none List.not_mem_nil⟩
  · next bytes written =>
      refine ⟨[error], Nat.le_refl _, ?_, fun _ member =>
        List.mem_singleton.mp member ▸ (writeFrame_eq_some written).2⟩
      rw [List.map_cons, List.map_nil, frames_singleton, ← (writeFrame_eq_some written).1]
      rfl

theorem fail_kept (libraries : Libraries) (bridge : Bridge D) (error : HostError) :
    (∃ code, (bridge.fail libraries error).phase = .exited code) ∧
    (bridge.fail libraries error).relayed = bridge.relayed ∧
    (bridge.fail libraries error).handled = bridge.handled ∧
    (bridge.fail libraries error).serving = bridge.serving ∧
    (bridge.fail libraries error).sent = bridge.sent := by
  unfold Bridge.fail
  split
  · exact ⟨⟨1, rfl⟩, rfl, rfl, rfl, rfl⟩
  · exact ⟨⟨1, rfl⟩, rfl, rfl, rfl, rfl⟩

/-- A host that fails before the handshake's result is written. -/
theorem Before.fail (before : Before bridge) (stdin : Pipe) (error : HostError) :
    Refused libraries source (({ bridge with stdin } : Bridge D).fail libraries error) := by
  obtain ⟨phase, relayed, handled, serving, sent⟩ :=
    fail_kept libraries { bridge with stdin } error
  obtain ⟨errors, few, shown, short⟩ := fail_shown libraries { bridge with stdin } error
  refine ⟨phase, relayed.trans before.relayed, handled.trans before.handled,
    serving.trans before.serving, _, ?_, .inl ⟨errors, few, rfl⟩, ?_⟩
  · rw [shown]
    change bridge.shown ++ _ = _
    rw [before.shown, List.nil_append]
  · intro body member
    obtain ⟨error, known, rfl⟩ := List.mem_map.mp member
    exact short error known

/-- A host that writes the handshake's result and connects. -/
theorem Before.connect (before : Before bridge) {first : List UInt8}
    {response : Json} {stdin : Pipe} (accepted : Accepted libraries source first response)
    (sent : bridge.sent = frame first ++ stdin.bytes) :
    Talking libraries source
      ((({ bridge with stdin } : Bridge D).print
        (frame (libraries.serde.render response))).connect) [] [] where
  greeted := Phase.noConfusion
  opened := by
    refine ⟨first, response, accepted, ?_, ?_, ?_⟩
    · rw [frames_nil, List.append_nil]
      exact ⟨stdin.bytes, sent.symm⟩
    · intro _
      rw [frames_nil, List.append_nil]
      exact sent
    · change bridge.shown ++ _ = _
      rw [before.shown, List.nil_append, frames_nil, List.append_nil]
  bounded := by
    intro body none
    cases none
  relayed := before.relayed
  handled := by
    change bridge.handled.map Prod.fst <+: _
    rw [before.handled]
    exact List.prefix_refl _
  waiting := by
    intro _
    refine ⟨[], before.requests, ?_⟩
    change [] = bridge.handled.map Prod.fst ++ []
    rw [before.handled]
    rfl
  answered := by
    refine ⟨[], List.nil_prefix, List.prefix_refl _, ?_, ?_, ?_⟩
    · intro body none
      cases none
    · intro _ _
      change [] = bridge.handled.map Prod.snd
      rw [before.handled]
      rfl
    · intro _
      exact ⟨[], before.responses, rfl⟩

theorem Before.greet (before : Before bridge) (connects : Bool) :
    Stage libraries source (bridge.greet libraries source connects) := by
  unfold Bridge.greet
  split
  · exact .before before
  · exact .refused (before.fail _ _)
  · next body stdin read =>
      split
      · exact .refused (before.fail _ _)
      · next response checked =>
          obtain ⟨taken, fits, -⟩ := readFrame_ok read
          have first : bridge.sent = frame body ++ stdin.bytes := before.sent.trans taken
          split
          · exact .refused (before.fail _ _)
          · next bytes written =>
              obtain ⟨rfl, short⟩ := writeFrame_eq_some written
              have accepted : Accepted libraries source body response :=
                ⟨checkHandshake_ok checked, fits, short⟩
              split
              · exact .talking [] [] (before.connect accepted first)
              · obtain ⟨phase, relayed, handled, serving, sent⟩ := fail_kept
                  libraries (({ bridge with stdin } : Bridge D).print
                    (frame (libraries.serde.render response))) .ipcConnectFailed
                obtain ⟨errors, few, shown, small⟩ := fail_shown
                  libraries (({ bridge with stdin } : Bridge D).print
                    (frame (libraries.serde.render response))) .ipcConnectFailed
                refine .refused ⟨phase, relayed.trans before.relayed, handled.trans before.handled,
                  serving.trans before.serving, _, ?_, .inr ⟨body, response, accepted, ?_,
                    errors, few, rfl⟩, ?_⟩
                · rw [shown, frames_cons]
                  change bridge.shown ++ _ ++ _ = _
                  rw [before.shown, List.nil_append]
                · rw [sent]
                  exact ⟨stdin.bytes, first.symm⟩
                · intro other member
                  rcases List.mem_cons.mp member with rfl | listed
                  · exact short
                  · obtain ⟨error, known, rfl⟩ := List.mem_map.mp listed
                    exact small error known

/-! ## The steps of a connection -/

/-- A host that ends keeps what it carried. -/
theorem Talking.exit (talking : Talking libraries source bridge forwarded returned)
    (stdin responses : Pipe) (code : Nat) :
    Talking libraries source (({ bridge with stdin, responses } : Bridge D).exit code) forwarded
      returned where
  greeted := Phase.noConfusion
  opened := by
    obtain ⟨first, response, accepted, sent, -, shown⟩ := talking.opened
    exact ⟨first, response, accepted, sent, Phase.noConfusion, shown⟩
  bounded := talking.bounded
  relayed := talking.relayed
  handled := talking.handled
  waiting := talking.waiting
  answered := by
    obtain ⟨answers, answered⟩ := talking.answered
    exact ⟨answers, answered.given, answered.carried, answered.bounded, Phase.noConfusion,
      Phase.noConfusion⟩

/-- A desktop that ends its side keeps what it handled. -/
theorem Talking.hangUp (talking : Talking libraries source bridge forwarded returned)
    (requests : Pipe) :
    Talking libraries source ({ bridge with requests } : Bridge D).hangUp forwarded returned where
  greeted := talking.greeted
  opened := talking.opened
  bounded := talking.bounded
  relayed := talking.relayed
  handled := talking.handled
  waiting serving := by cases serving
  answered := by
    obtain ⟨answers, answered⟩ := talking.answered
    refine ⟨answers, answered.given, answered.carried, answered.bounded, ?_, answered.coming⟩
    intro _ serving
    cases serving

theorem Talking.forward (talking : Talking libraries source bridge forwarded returned)
    (relaying : bridge.phase = .relaying) :
    ∃ forwarded, Talking libraries source bridge.forward forwarded returned := by
  obtain ⟨first, response, accepted, -, unread, shown⟩ := talking.opened
  unfold Bridge.forward
  split
  · exact ⟨forwarded, talking⟩
  · exact ⟨forwarded, talking.exit _ bridge.responses 0⟩
  · exact ⟨forwarded, talking.exit _ bridge.responses 1⟩
  · next body stdin read =>
      obtain ⟨taken, fits, -⟩ := readFrame_ok read
      split
      · have sent : bridge.sent = frame first ++ frames (forwarded ++ [body]) ++ stdin.bytes := by
          rw [unread relaying, taken, frames_append, frames_singleton]
          simp only [List.append_assoc]
        refine ⟨forwarded ++ [body], talking.greeted, ?_, ?_, ?_, ?_, ?_, ?_⟩
        · exact ⟨first, response, accepted, ⟨stdin.bytes, sent.symm⟩, fun _ => sent, shown⟩
        · intro other member
          rcases List.mem_append.mp member with old | new
          · exact talking.bounded other old
          · rw [List.mem_singleton.mp new]
            exact fits
        · change bridge.relayed ++ frame body = _
          rw [talking.relayed, frames_append, frames_singleton]
        · exact talking.handled.trans (List.prefix_append _ _)
        · intro serving
          obtain ⟨waiting, unhandled, split⟩ := talking.waiting serving
          refine ⟨waiting ++ [body], ?_, ?_⟩
          · change bridge.requests.bytes ++ frame body = _
            rw [unhandled, frames_append, frames_singleton]
          · change _ = bridge.handled.map Prod.fst ++ _
            rw [split, List.append_assoc]
        · obtain ⟨answers, answered⟩ := talking.answered
          exact ⟨answers, answered.given, answered.carried, answered.bounded, answered.whole,
            answered.coming⟩
      · exact ⟨forwarded, talking.exit _ bridge.responses 1⟩

theorem Talking.back (talking : Talking libraries source bridge forwarded returned)
    (relaying : bridge.phase = .relaying) :
    ∃ returned, Talking libraries source bridge.back forwarded returned := by
  unfold Bridge.back
  split
  · exact ⟨returned, talking⟩
  · exact ⟨returned, talking.exit bridge.stdin _ 0⟩
  · exact ⟨returned, talking.exit bridge.stdin _ 1⟩
  · next body responses read =>
      obtain ⟨answers, answered⟩ := talking.answered
      obtain ⟨coming, unread, split⟩ := answered.coming relaying
      have pipe : bridge.responses = ⟨frames coming, bridge.responses.closed⟩ := by
        rw [← unread]
      have small : ∀ body ∈ coming, body.length ≤ maxFrameBytes := by
        intro other member
        exact answered.bounded other (split ▸ List.mem_append_right _ member)
      rw [pipe] at read
      obtain ⟨later, rfl, rfl⟩ := readFrame_frames _ small maxFrameBytes_small read
      obtain ⟨first, response, accepted, sent, unread, shown⟩ := talking.opened
      refine ⟨returned ++ [body], talking.greeted, ⟨first, response, accepted, sent, unread,
        ?_⟩, talking.bounded, talking.relayed, talking.handled, talking.waiting, answers,
        answered.given, ?_, answered.bounded, answered.whole, ?_⟩
      · change bridge.shown ++ frame body = _
        rw [shown, frames_append, frames_singleton, List.append_assoc]
      · exact ⟨later, by rw [split, List.append_assoc]; rfl⟩
      · intro _
        exact ⟨later, rfl, by rw [split, List.append_assoc]; rfl⟩

/-- The desktop handles the next request and ends its side. -/
theorem Talking.handleLast (talking : Talking libraries source bridge forwarded returned)
    {body : List UInt8} (next : bridge.handled.map Prod.fst ++ [body] <+: forwarded)
    (response : List UInt8) (requests : Pipe) (desktop : D) :
    Talking libraries source
      ({ bridge with requests, desktop, handled := bridge.handled ++ [(body, response)] } :
        Bridge D).hangUp forwarded returned where
  greeted := talking.greeted
  opened := talking.opened
  bounded := talking.bounded
  relayed := talking.relayed
  handled := by
    change (bridge.handled ++ [(body, response)]).map Prod.fst <+: _
    rw [List.map_append]
    exact next
  waiting serving := by cases serving
  answered := by
    obtain ⟨answers, answered⟩ := talking.answered
    refine ⟨answers, ?_, answered.carried, answered.bounded, ?_, answered.coming⟩
    · change _ <+: (bridge.handled ++ [(body, response)]).map Prod.snd
      rw [List.map_append]
      exact answered.given.trans (List.prefix_append _ _)
    · intro _ serving
      cases serving

/-- The desktop handles the next request, and its answer is on its way. -/
theorem Talking.handle (talking : Talking libraries source bridge forwarded returned)
    {body response : List UInt8} {later : List (List UInt8)}
    (next : forwarded = bridge.handled.map Prod.fst ++ body :: later)
    (short : response.length ≤ maxFrameBytes) (relaying : bridge.phase = .relaying)
    (serving : bridge.serving = true) (closed : Bool) (desktop : D) :
    Talking libraries source
      ({ bridge with
        requests := ⟨frames later, closed⟩
        desktop
        handled := bridge.handled ++ [(body, response)]
        responses := bridge.responses.write (frame response) } : Bridge D) forwarded returned where
  greeted := talking.greeted
  opened := talking.opened
  bounded := talking.bounded
  relayed := talking.relayed
  handled := by
    change (bridge.handled ++ [(body, response)]).map Prod.fst <+: _
    rw [List.map_append, next, List.append_cons]
    exact List.prefix_append _ _
  waiting _ := by
    refine ⟨later, rfl, ?_⟩
    change _ = (bridge.handled ++ [(body, response)]).map Prod.fst ++ later
    rw [List.map_append, next, List.append_cons]
    rfl
  answered := by
    obtain ⟨answers, answered⟩ := talking.answered
    obtain ⟨coming, unread, split⟩ := answered.coming relaying
    have all : (bridge.handled ++ [(body, response)]).map Prod.snd = answers ++ [response] := by
      rw [List.map_append, answered.whole relaying serving]
      rfl
    refine ⟨answers ++ [response], ?_, answered.carried.trans (List.prefix_append _ _), ?_, ?_, ?_⟩
    · change _ <+: (bridge.handled ++ [(body, response)]).map Prod.snd
      rw [all]
    · intro other member
      rcases List.mem_append.mp member with old | new
      · exact answered.bounded other old
      · rw [List.mem_singleton.mp new]
        exact short
    · intro _ _
      exact all.symm
    · intro _
      refine ⟨coming ++ [response], ?_, ?_⟩
      · change bridge.responses.bytes ++ frame response = _
        rw [unread, frames_append, frames_singleton]
      · rw [split, List.append_assoc]

theorem Talking.serve (talking : Talking libraries source bridge forwarded returned)
    (serving : bridge.serving = true) :
    Talking libraries source (bridge.serve answer) forwarded returned := by
  obtain ⟨waiting, unread, parts⟩ := talking.waiting serving
  unfold Bridge.serve
  split
  · exact talking
  · exact talking.hangUp _
  · next body requests read =>
      have pipe : bridge.requests = ⟨frames waiting, bridge.requests.closed⟩ := by
        rw [← unread]
      have small : ∀ body ∈ waiting, body.length ≤ maxFrameBytes := by
        intro other member
        exact talking.bounded other (parts ▸ List.mem_append_right _ member)
      rw [pipe] at read
      obtain ⟨later, rfl, rfl⟩ := readFrame_frames _ small maxFrameBytes_small read
      have next : bridge.handled.map Prod.fst ++ [body] <+: forwarded :=
        ⟨later, by rw [parts, List.append_assoc]; rfl⟩
      dsimp only
      split
      · exact talking.handleLast next _ _ _
      · next bytes written =>
          obtain ⟨rfl, short⟩ := writeFrame_eq_some written
          split
          · next relaying => exact talking.handle parts short relaying serving _ _
          · exact talking.handleLast next _ _ _

/-- What the extension writes more comes behind what it wrote. -/
theorem Talking.write (talking : Talking libraries source bridge forwarded returned)
    (bytes : List UInt8) :
    Talking libraries source
      ({ bridge with stdin := bridge.stdin.write bytes, sent := bridge.sent ++ bytes } : Bridge D)
      forwarded returned where
  greeted := talking.greeted
  opened := by
    obtain ⟨first, response, accepted, sent, unread, shown⟩ := talking.opened
    refine ⟨first, response, accepted, sent.trans (List.prefix_append _ _), ?_, shown⟩
    intro relaying
    change bridge.sent ++ bytes = _ ++ (bridge.stdin.bytes ++ bytes)
    rw [unread relaying, List.append_assoc]
  bounded := talking.bounded
  relayed := talking.relayed
  handled := talking.handled
  waiting := talking.waiting
  answered := by
    obtain ⟨answers, answered⟩ := talking.answered
    exact ⟨answers, answered.given, answered.carried, answered.bounded, answered.whole,
      answered.coming⟩

/-- A change that leaves the record and the connection alone. -/
theorem Talking.congr {bridge' : Bridge D}
    (talking : Talking libraries source bridge forwarded returned)
    (phase : bridge'.phase = bridge.phase) (stdin : bridge'.stdin.bytes = bridge.stdin.bytes)
    (requests : bridge'.requests = bridge.requests)
    (responses : bridge'.responses = bridge.responses)
    (serving : bridge'.serving = bridge.serving) (sent : bridge'.sent = bridge.sent)
    (shown : bridge'.shown = bridge.shown) (relayed : bridge'.relayed = bridge.relayed)
    (handled : bridge'.handled = bridge.handled) :
    Talking libraries source bridge' forwarded returned where
  greeted := phase ▸ talking.greeted
  opened := by
    rw [phase, sent, stdin, shown]
    exact talking.opened
  bounded := talking.bounded
  relayed := relayed.trans talking.relayed
  handled := handled ▸ talking.handled
  waiting := by
    rw [serving, requests, handled]
    exact talking.waiting
  answered := by
    obtain ⟨answers, answered⟩ := talking.answered
    refine ⟨answers, ?_, answered.carried, answered.bounded, ?_, ?_⟩
    · rw [handled]
      exact answered.given
    · rw [phase, serving, handled]
      exact answered.whole
    · rw [phase, responses]
      exact answered.coming

theorem Talking.step (talking : Talking libraries source bridge forwarded returned) (op : Op D) :
    ∃ forwarded returned,
      Talking libraries source (bridge.step libraries source answer op) forwarded returned := by
  cases op with
  | write bytes =>
      simp only [Bridge.step]
      split
      · exact ⟨forwarded, returned, talking⟩
      · exact ⟨forwarded, returned, talking.write bytes⟩
  | closeStdin => exact ⟨forwarded, returned, talking.congr rfl rfl rfl rfl rfl rfl rfl rfl rfl⟩
  | receive =>
      simp only [Bridge.step]
      split
      · exact ⟨forwarded, returned, talking.congr rfl rfl rfl rfl rfl rfl rfl rfl rfl⟩
      · exact ⟨forwarded, returned, talking⟩
  | handshake connects =>
      simp only [Bridge.step]
      rw [if_neg talking.greeted]
      exact ⟨forwarded, returned, talking⟩
  | forward =>
      simp only [Bridge.step]
      split
      · next relaying =>
          obtain ⟨forwarded, after⟩ := talking.forward relaying
          exact ⟨forwarded, returned, after⟩
      · exact ⟨forwarded, returned, talking⟩
  | back =>
      simp only [Bridge.step]
      split
      · next relaying => exact ⟨forwarded, talking.back relaying⟩
      · exact ⟨forwarded, returned, talking⟩
  | serve =>
      simp only [Bridge.step]
      split
      · next serving => exact ⟨forwarded, returned, talking.serve serving⟩
      · exact ⟨forwarded, returned, talking⟩
  | desktopQuits => exact ⟨forwarded, returned, talking.hangUp bridge.requests⟩
  | desktopActs desktop =>
      exact ⟨forwarded, returned, talking.congr rfl rfl rfl rfl rfl rfl rfl rfl rfl⟩
  | kill =>
      simp only [Bridge.step]
      split
      · exact ⟨forwarded, returned, talking⟩
      · exact ⟨forwarded, returned, talking.exit bridge.stdin bridge.responses 1⟩

/-! ## The steps without a connection -/

/-- What was written by itself stays so when the extension writes more. -/
theorem Greeting.mono {sent more : List UInt8} {bodies : List (List UInt8)}
    (greeting : Greeting libraries source sent bodies) :
    Greeting libraries source (sent ++ more) bodies := by
  rcases greeting with silent | ⟨first, response, accepted, read, errors⟩
  · exact .inl silent
  · exact .inr ⟨first, response, accepted, read.trans (List.prefix_append _ _), errors⟩

theorem Before.step (before : Before bridge) (op : Op D) :
    Stage libraries source (bridge.step libraries source answer op) := by
  have early : bridge.phase ≠ .relaying := by
    rw [before.phase]
    exact Phase.noConfusion
  cases op with
  | write bytes =>
      simp only [Bridge.step]
      split
      · exact .before before
      · refine .before ⟨before.phase, ?_, before.shown, before.relayed, before.handled,
          before.serving, before.requests, before.responses⟩
        exact congrArg (· ++ bytes) before.sent
  | closeStdin => exact .before ⟨before.phase, before.sent, before.shown, before.relayed,
      before.handled, before.serving, before.requests, before.responses⟩
  | receive =>
      simp only [Bridge.step]
      split
      · exact .before ⟨before.phase, before.sent, before.shown, before.relayed, before.handled,
          before.serving, before.requests, before.responses⟩
      · exact .before before
  | handshake connects =>
      simp only [Bridge.step]
      rw [if_pos before.phase]
      exact before.greet connects
  | forward =>
      simp only [Bridge.step]
      rw [if_neg early]
      exact .before before
  | back =>
      simp only [Bridge.step]
      rw [if_neg early]
      exact .before before
  | serve =>
      simp only [Bridge.step, before.serving, Bool.false_eq_true, if_false]
      exact .before before
  | desktopQuits => exact .before ⟨before.phase, before.sent, before.shown, before.relayed,
      before.handled, rfl, before.requests, before.responses⟩
  | desktopActs desktop => exact .before ⟨before.phase, before.sent, before.shown, before.relayed,
      before.handled, before.serving, before.requests, before.responses⟩
  | kill =>
      simp only [Bridge.step, before.phase]
      exact .refused ⟨⟨1, rfl⟩, before.relayed, before.handled, before.serving, [], before.shown,
        .inl ⟨[], Nat.zero_le _, rfl⟩, fun _ none => absurd none List.not_mem_nil⟩

theorem Refused.step (refused : Refused libraries source bridge) (op : Op D) :
    Refused libraries source (bridge.step libraries source answer op) := by
  obtain ⟨code, ended⟩ := refused.phase
  have late : bridge.phase ≠ .relaying ∧ bridge.phase ≠ .handshake := by
    rw [ended]
    exact ⟨Phase.noConfusion, Phase.noConfusion⟩
  cases op with
  | write bytes =>
      simp only [Bridge.step]
      split
      · exact refused
      · obtain ⟨bodies, shown, greeting, short⟩ := refused.shown
        exact ⟨refused.phase, refused.relayed, refused.handled, refused.serving, bodies, shown,
          greeting.mono, short⟩
  | closeStdin => exact ⟨refused.phase, refused.relayed, refused.handled, refused.serving,
      refused.shown⟩
  | receive =>
      simp only [Bridge.step]
      split
      · exact ⟨refused.phase, refused.relayed, refused.handled, refused.serving, refused.shown⟩
      · exact refused
  | handshake connects =>
      simp only [Bridge.step]
      rw [if_neg late.2]
      exact refused
  | forward =>
      simp only [Bridge.step]
      rw [if_neg late.1]
      exact refused
  | back =>
      simp only [Bridge.step]
      rw [if_neg late.1]
      exact refused
  | serve =>
      simp only [Bridge.step, refused.serving, Bool.false_eq_true, if_false]
      exact refused
  | desktopQuits => exact ⟨refused.phase, refused.relayed, refused.handled, rfl, refused.shown⟩
  | desktopActs desktop => exact ⟨refused.phase, refused.relayed, refused.handled, refused.serving,
      refused.shown⟩
  | kill =>
      simp only [Bridge.step, ended]
      exact refused

/-! ## Runs -/

theorem Stage.step (stage : Stage libraries source bridge) (op : Op D) :
    Stage libraries source (bridge.step libraries source answer op) := by
  cases stage with
  | before before => exact before.step op
  | refused refused => exact .refused (refused.step op)
  | talking forwarded returned talking =>
      obtain ⟨forwarded, returned, after⟩ := talking.step op
      exact .talking forwarded returned after

theorem Stage.run (stage : Stage libraries source bridge) (ops : List (Op D)) :
    Stage libraries source (ops.foldl (Bridge.step libraries source answer) bridge) := by
  induction ops generalizing bridge with
  | nil => exact stage
  | cons op ops ih => exact ih (stage.step op)

end

/-- In every order of steps the host carries nothing, or the extension's first frame was a
handshake with the expected token, and the bytes carried to the desktop are the frames behind it.
The desktop handles them in order, and in order its answers come back behind the handshake's. -/
theorem host_relays_faithfully (libraries : Libraries) (source : TokenSource)
    (answer : D → List UInt8 → D × List UInt8) (desktop : D) (ops : List (Op D)) :
    let bridge := ops.foldl (Bridge.step libraries source answer) (.start desktop)
    bridge.relayed = [] ∧ bridge.handled = [] ∨
    ∃ first response forwarded returned, Authentic libraries source first response ∧
      bridge.relayed = frames forwarded ∧ frame first ++ bridge.relayed <+: bridge.sent ∧
      bridge.handled.map Prod.fst <+: forwarded ∧
      bridge.shown = frame (libraries.serde.render response) ++ frames returned ∧
      returned <+: bridge.handled.map Prod.snd := by
  intro bridge
  have stage : Stage libraries source bridge := (Stage.before (Before.start desktop)).run ops
  cases stage with
  | before before => exact .inl ⟨before.relayed, before.handled⟩
  | refused refused => exact .inl ⟨refused.relayed, refused.handled⟩
  | talking forwarded returned talking =>
      obtain ⟨first, response, accepted, sent, -, shown⟩ := talking.opened
      obtain ⟨answers, answered⟩ := talking.answered
      refine .inr ⟨first, response, forwarded, returned, accepted.authentic, talking.relayed, ?_,
        talking.handled, shown, answered.carried.trans answered.given⟩
      rw [talking.relayed]
      exact sent

end Pangolin.Native
