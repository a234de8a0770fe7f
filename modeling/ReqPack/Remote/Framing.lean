import ReqPack.Remote.Session
import ReqPack.Remote.Uploads

/-! # The text stream stays in step

The client sends lines and, behind the header of an upload, as many bytes as the header
announces.  The server reads lines and counted bytes in turn, and both agree on the
boundaries as long as every message reads back as it was meant.
-/

namespace ReqPack.Remote

open ReqPack.Data
open ReqPack.Data.Ascii

/-- What a client sends over a text connection. -/
inductive Message
  /-- a command given as arguments -/
  | command (arguments : List Bytes)
  /-- a line typed by the user, which is trimmed and sent as it is -/
  | typed (line : Bytes)
  | upload (request : UploadInstallRequest) (content : Bytes)
deriving DecidableEq, Repr

namespace Message

def text : Message → Bytes
  | .command arguments => joinArguments arguments
  | .typed line => trimCopy line
  | .upload request _ => uploadHeader request

/-- The tokens the client means. -/
def tokens : Message → List Bytes
  | .command arguments => arguments
  | .typed line => tokenizeCommandLine (trimCopy line)
  | .upload request _ =>
      [remoteUploadInstallCommand, toDecimal request.size, request.filename, request.commandTemplate]

def payload : Message → Bytes
  | .command _ | .typed _ => []
  | .upload _ content => content

def encode (message : Message) : Bytes := message.text ++ newline :: message.payload

/-- What the server should read. -/
def events : Message → List Event
  | .upload request content => [.line (tokens (.upload request content)), .payload content]
  | .command arguments => [.line arguments]
  | .typed line => [.line (tokens (.typed line))]

/-- An upload is one that the client detected, and the file is sent as it was measured. -/
def Sent : Message → Prop
  | .upload request content => ∃ files arguments sized,
      detectUploadInstallRequest files arguments = .ok (some request) ∧
        files request.filePath = .regular content sized
  | .command _ | .typed _ => True

/-- No line break or carriage return stands in a line, no argument is damaged on the way,
and only an upload looks like one. -/
def WellFormed (message : Message) : Prop :=
  newline ∉ message.text ∧ carriageReturn ∉ message.text ∧
    match message with
    | .command arguments => (∀ argument ∈ arguments, argument ≠ [] ∧ survives argument = true) ∧
        arguments.head? ≠ some remoteUploadInstallCommand
    | .typed line => (tokenizeCommandLine (trimCopy line)).head? ≠ some remoteUploadInstallCommand
    | .upload request _ => request.filename ≠ [] ∧ survives request.filename = true

end Message

/-! ## Lines -/

theorem nextLine_terminated {line : Bytes} (single : newline ∉ line) (plain : carriageReturn ∉ line)
    (rest : Bytes) : nextLine (line ++ newline :: rest) = some (line, rest) := by
  have read : readLine (line ++ newline :: rest) = some (line, rest) := by
    induction line with
    | nil => simp [readLine]
    | cons c line ih =>
        simp only [List.mem_cons, not_or] at single plain
        rw [List.cons_append, readLine, if_neg (Ne.symm single.1), ih single.2 plain.2]
        simp [Ne.symm plain.1]
  simp [nextLine, read]

theorem quoteArgument_ends {argument : Bytes} (named : argument ≠ []) :
    ∃ first last, (quoteArgument argument).head? = some first ∧ (quoteArgument argument).getLast? = some last ∧
      isBlank first = false ∧ isBlank last = false := by
  rw [quoteArgument]
  split
  · exact ⟨doubleQuote, doubleQuote, rfl, by rw [← List.cons_append, List.getLast?_append]; rfl, by decide, by decide⟩
  · rename_i bare
    have clear : ∀ c ∈ argument, isBlank c = false := by
      intro c member
      simp only [needsQuotes, Bool.not_eq_true, List.any_eq_false, Bool.or_eq_true, not_or] at bare
      simpa using (bare c member).1.1
    exact ⟨argument.head named, argument.getLast named, List.head?_eq_some_head named,
      List.getLast?_eq_some_getLast named, clear _ (List.head_mem named), clear _ (List.getLast_mem named)⟩

theorem joinArguments_ends {arguments : List Bytes} (named : ∀ argument ∈ arguments, argument ≠ []) :
    (∀ c, (joinArguments arguments).head? = some c → isBlank c = false) ∧
      ∀ c, (joinArguments arguments).getLast? = some c → isBlank c = false := by
  induction arguments with
  | nil => simp [joinArguments, List.intercalate]
  | cons argument rest ih =>
      obtain ⟨first, last, head, final, firstPlain, lastPlain⟩ :=
        quoteArgument_ends (named argument List.mem_cons_self)
      cases rest with
      | nil =>
          simp only [joinArguments, List.map_cons, List.map_nil, List.intercalate_singleton, head, final,
            Option.some.injEq]
          exact ⟨fun c same => same ▸ firstPlain, fun c same => same ▸ lastPlain⟩
      | cons next others =>
          have later := ih fun value member => named value (List.mem_cons_of_mem _ member)
          have joined : joinArguments (argument :: next :: others) =
              quoteArgument argument ++ space :: joinArguments (next :: others) := by
            simp [joinArguments, List.intercalate_cons_cons]
          obtain ⟨_, nextLast, _, nextFinal, _, _⟩ := quoteArgument_ends (named next (by simp))
          have filled : joinArguments (next :: others) ≠ [] := by
            obtain ⟨nextFirst, _, nextHead, _⟩ := quoteArgument_ends (named next (by simp))
            intro empty
            cases others with
            | nil =>
                simp only [joinArguments, List.map_cons, List.map_nil, List.intercalate_singleton] at empty
                simp [empty] at nextHead
            | cons other others => simp [joinArguments, List.intercalate_cons_cons] at empty
          rw [joined]
          refine ⟨fun c same => ?_, fun c same => ?_⟩
          · rw [List.head?_append, head, Option.some_or, Option.some.injEq] at same
            exact same ▸ firstPlain
          · rw [List.getLast?_append, List.getLast?_cons] at same
            apply later.2 c
            rw [List.getLast?_eq_some_getLast filled] at same ⊢
            simpa using same

/-- A line of arguments that come through is read as these arguments. -/
theorem tokenize_trimmed_join {arguments : List Bytes}
    (whole : ∀ argument ∈ arguments, argument ≠ [] ∧ survives argument = true) :
    tokenizeCommandLine (trimCopy (joinArguments arguments)) = arguments := by
  have ends := joinArguments_ends fun argument member => (whole argument member).1
  rw [trimCopy_of_ends ends.1 ends.2]
  exact (tokenize_joinArguments_iff fun argument member => (whole argument member).1).mpr
    fun argument member => (whole argument member).2

namespace Message

variable {message : Message}

/-- A detected upload announces the size of the file and carries a command in quotes. -/
theorem sent_upload {request : UploadInstallRequest} {content : Bytes} (sent : (upload request content).Sent) :
    request.size = content.length ∧ content.length < 2 ^ 64 ∧ space ∈ request.commandTemplate := by
  obtain ⟨files, arguments, sized, detected, found⟩ := sent
  obtain ⟨first, index, _, behindTwo, inside, measured, fits, same, shape⟩ := detect_eq_some detected
  subst shape
  rw [found] at same
  cases same
  exact ⟨rfl, fits, space_mem_uploadTemplate (by omega) inside⟩

/-- A well-formed message is read as the tokens the client means. -/
theorem tokens_read (sent : message.Sent) (formed : message.WellFormed) :
    tokenizeCommandLine (trimCopy message.text) = message.tokens := by
  cases message with
  | command arguments => exact tokenize_trimmed_join formed.2.2.1
  | typed line =>
      simp only [text, tokens, trimCopy_idem]
  | upload request content =>
      obtain ⟨_, _, spaced⟩ := sent_upload sent
      apply tokenize_trimmed_join
      intro argument member
      simp only [List.mem_cons, List.not_mem_nil, or_false] at member
      rcases member with rfl | rfl | rfl | rfl
      · exact ⟨by decide, by decide⟩
      · exact ⟨toDecimal_ne_nil _, survives_of_plain (toDecimal_plain _)⟩
      · exact formed.2.2
      · refine ⟨List.ne_nil_of_mem spaced, ?_⟩
        rw [survives, needsQuotes, Bool.or_eq_true, List.any_eq_true]
        exact Or.inl ⟨space, spaced, by decide⟩

end Message

/-! ## The invariant -/

def Event.isTraffic : Event → Bool
  | .line _ | .payload _ => true
  | .opened _ | .presented _ _ | .uploaded _ | .executed _ _ _ _ => false

/-- What was read from the connection. -/
def traffic (log : List Event) : List Event := log.filter Event.isTraffic

@[simp] theorem traffic_append (first second : List Event) :
    traffic (first ++ second) = traffic first ++ traffic second := by
  simp [traffic]

/-- The server has read the first messages and nothing else. -/
def AtBoundary (messages : List Message) (session : Session) : Prop :=
  ∃ done rest, messages = done ++ rest ∧ traffic session.log = done.flatMap Message.events ∧
    session.input = rest.flatMap Message.encode

/-- The server has also read the line of the next message. -/
def BehindLine (messages : List Message) (session : Session) (line : Bytes) : Prop :=
  ∃ done message rest, messages = done ++ message :: rest ∧
    traffic session.log = done.flatMap Message.events ++ [.line message.tokens] ∧ line = message.text ∧
    session.input = message.payload ++ rest.flatMap Message.encode

/-- The line was the header of an upload of this size. -/
def BehindHeader (messages : List Message) (session : Session) (size : Nat) : Prop :=
  ∃ done request content rest, messages = done ++ .upload request content :: rest ∧
    traffic session.log =
      done.flatMap Message.events ++ [.line (Message.tokens (.upload request content))] ∧
    size = content.length ∧ session.input = content ++ rest.flatMap Message.encode

structure InStep (messages : List Message) (session : Session) : Prop where
  server : session.server.options.remoteProtocol = .text
  protocol : session.protocol = .text
  phase : match session.phase with
    | .connected => session.log = [] ∧ session.input = messages.flatMap Message.encode
    | .waiting => AtBoundary messages session
    | .received line => BehindLine messages session line
    | .admitted line => BehindLine messages session line
    | .storing envelope => BehindHeader messages session envelope.size
    | .closed => traffic session.log <+: messages.flatMap Message.events

section Steps

variable {env : ServerEnv} {sessionId : Nat} {messages : List Message} {session next : Session}

theorem Message.events_of_no_payload {message : Message} (bare : ∀ request content, message ≠ .upload request content) :
    message.events = [.line message.tokens] ∧ message.payload = [] := by
  cases message with
  | command arguments => exact ⟨rfl, rfl⟩
  | typed line => exact ⟨rfl, rfl⟩
  | upload request content => exact absurd rfl (bare request content)

theorem Message.events_begin (message : Message) : [.line message.tokens] <+: message.events := by
  cases message with
  | command arguments => exact List.prefix_refl _
  | typed line => exact List.prefix_refl _
  | upload request content => exact ⟨[.payload content], rfl⟩

theorem AtBoundary.leads (boundary : AtBoundary messages session) :
    traffic session.log <+: messages.flatMap Message.events := by
  obtain ⟨done, rest, rfl, read, _⟩ := boundary
  rw [read, List.flatMap_append]
  exact List.prefix_append _ _

theorem BehindLine.leads {line : Bytes} (behind : BehindLine messages session line) :
    traffic session.log <+: messages.flatMap Message.events := by
  obtain ⟨done, message, rest, rfl, read, _, _⟩ := behind
  obtain ⟨more, begins⟩ := message.events_begin
  rw [read, List.flatMap_append, List.flatMap_cons, ← begins]
  exact ⟨more ++ rest.flatMap Message.events, by simp⟩

/-- A line that is not the header of an upload is the whole message. -/
theorem BehindLine.boundary {line : Bytes} (behind : BehindLine messages session line)
    (sent : ∀ message ∈ messages, message.Sent) (formed : ∀ message ∈ messages, message.WellFormed)
    (bare : (tokenizeCommandLine (trimCopy line)).head? ≠ some remoteUploadInstallCommand) :
    AtBoundary messages session := by
  obtain ⟨done, message, rest, rfl, read, rfl, input⟩ := behind
  have listed : message ∈ done ++ message :: rest := by simp
  rw [Message.tokens_read (sent message listed) (formed message listed)] at bare
  have whole := @Message.events_of_no_payload message (by
    rintro request content rfl
    exact bare rfl)
  refine ⟨done ++ [message], rest, by simp, ?_, ?_⟩
  · rw [read]
    simp [whole.1]
  · rw [input, whole.2, List.nil_append]

theorem answer_inStep {response : RemoteResponse} (server : session.server.options.remoteProtocol = .text)
    (protocol : session.protocol = .text) (boundary : AtBoundary messages session) :
    InStep messages (session.answer response) := by
  refine ⟨server, protocol, ?_⟩
  simp only [Session.answer]
  cases response.closeConnection with
  | true => exact boundary.leads
  | false => exact boundary

theorem afterReload_protocol (source : ReloadSource) (state : RemoteServerState) :
    (afterReload env source state).options.remoteProtocol = state.options.remoteProtocol := by
  cases source with
  | error message => rfl
  | ok loaded => rfl

theorem executeCommand_protocol (source : ReloadSource) (identity : SessionIdentity) (commandLine : Bytes)
    (state : RemoteServerState) :
    (executeCommand env source identity commandLine state).state.options.remoteProtocol =
      state.options.remoteProtocol := by
  have reloaded := @afterReload_protocol env source state
  simp only [executeCommand, adminRequired]
  split
  · rfl
  · split
    · rfl
    · split
      · rfl
      · split
        · split <;> rfl
        · split
          · split <;> rfl
          · split
            · split <;> rfl
            · split
              · split
                · split
                  · rfl
                  · rename_i loaded
                    simpa [afterReload, loaded] using reloaded
                · rfl
              · rfl

theorem runCommand_inStep {source : ReloadSource} {commandLine : Bytes}
    (server : session.server.options.remoteProtocol = .text) (protocol : session.protocol = .text)
    (boundary : AtBoundary messages session) : InStep messages (session.runCommand env source commandLine) := by
  apply answer_inStep
  · exact (executeCommand_protocol _ _ _ _).trans server
  · exact protocol
  · obtain ⟨done, rest, whole, read, input⟩ := boundary
    refine ⟨done, rest, whole, ?_, input⟩
    simp [Session.record, traffic, Event.isTraffic] at read ⊢
    exact read

/-- The line of the next message. -/
theorem nextLine_messages {message : Message} (formed : message.WellFormed) (rest : List Message) :
    nextLine ((message :: rest).flatMap Message.encode) =
      some (message.text, message.payload ++ rest.flatMap Message.encode) := by
  rw [List.flatMap_cons, Message.encode, List.append_assoc, List.cons_append]
  exact nextLine_terminated formed.1 formed.2.1 _

theorem openSession_inStep (inStep : InStep messages session) (phase : session.phase = .connected)
    (sent : ∀ message ∈ messages, message.Sent) (formed : ∀ message ∈ messages, message.WellFormed)
    (unbraced : ∀ message, messages.head? = some message → braced message.text = false) :
    InStep messages (session.openSession sessionId) := by
  have start := inStep.phase
  simp only [phase] at start
  obtain ⟨silent, input⟩ := start
  have text : (snapshotRemoteState session.server).options.remoteProtocol = .text := inStep.server
  cases messages with
  | nil =>
      rw [List.flatMap_nil] at input
      simp only [Session.openSession, input, nextLine, readLine, Option.bind_none]
      exact ⟨inStep.server, inStep.protocol, by simp [silent, traffic]⟩
  | cons message rest =>
      have here : message.WellFormed := formed message List.mem_cons_self
      have read := nextLine_messages here rest
      have tokens := Message.tokens_read (sent message List.mem_cons_self) here
      simp only [Session.openSession, input, read, detectConnectionProtocol, text,
        unbraced message rfl, Bool.false_eq_true, if_false, tokens]
      split
      · refine ⟨inStep.server, rfl, [], message, rest, rfl, ?_, rfl, rfl⟩
        simp [Session.record, silent, traffic, Event.isTraffic]
      · refine ⟨?_, rfl, [], message, rest, rfl, ?_, rfl, rfl⟩
        · simp only [Session.record, Session.takeIdentity]
          split <;> exact inStep.server
        · simp [Session.record, Session.takeIdentity, silent, traffic, Event.isTraffic]

theorem readNext_inStep (inStep : InStep messages session) (phase : session.phase = .waiting)
    (sent : ∀ message ∈ messages, message.Sent) (formed : ∀ message ∈ messages, message.WellFormed) :
    InStep messages session.readNext := by
  have boundary := inStep.phase
  simp only [phase] at boundary
  obtain ⟨done, rest, whole, read, input⟩ := boundary
  cases rest with
  | nil =>
      rw [List.flatMap_nil] at input
      simp only [Session.readNext, input, nextLine, readLine, Option.bind_none]
      refine ⟨inStep.server, inStep.protocol, ?_⟩
      exact @AtBoundary.leads messages session ⟨done, [], whole, read, input⟩
  | cons message rest =>
      have listed : message ∈ messages := by simp [whole]
      have line := nextLine_messages (formed message listed) rest
      have tokens := Message.tokens_read (sent message listed) (formed message listed)
      simp only [Session.readNext, input, line, tokens]
      refine ⟨inStep.server, inStep.protocol, done, message, rest, whole, ?_, rfl, rfl⟩
      simp [Session.record, read]
      rfl

theorem lookedAt_traffic (snapshot : RemoteStateSnapshot) (credentials : Option Credentials)
    (identity : SessionIdentity) : traffic (Session.lookedAt snapshot credentials identity) = [] := by
  simp only [Session.lookedAt]
  split
  · rfl
  · split
    · rfl
    · split <;> rfl

theorem authenticateText_inStep {line : Bytes} (inStep : InStep messages session)
    (phase : session.phase = .received line) (sent : ∀ message ∈ messages, message.Sent)
    (formed : ∀ message ∈ messages, message.WellFormed) :
    InStep messages (session.authenticateText sessionId line) := by
  have behind := inStep.phase
  simp only [phase] at behind
  have server (identity : SessionIdentity) (looked : Session) (same : looked.server = session.server) :
      (Session.takeIdentity sessionId identity looked).server.options.remoteProtocol = .text := by
    simp only [Session.takeIdentity, same]
    split <;> exact inStep.server
  have kept (events : List Event) (quiet : traffic events = []) (identity : SessionIdentity) :
      BehindLine messages (Session.takeIdentity sessionId identity (session.record events)) line := by
    obtain ⟨done, message, rest, whole, read, text, input⟩ := behind
    refine ⟨done, message, rest, whole, ?_, text, input⟩
    simp [Session.takeIdentity, Session.record, quiet, read]
  have quiet := lookedAt_traffic (snapshotRemoteState session.server) (textCredentials line) session.identity
  simp only [Session.authenticateText]
  split
  · rename_i identity admitted
    exact ⟨server identity _ rfl, inStep.protocol, kept _ quiet identity⟩
  · rename_i identity response answered
    by_cases header : Session.isUploadLine line = true
    · refine ⟨server identity _ rfl, inStep.protocol, ?_⟩
      simp only [Session.answer, header, Bool.or_true, if_true]
      exact (kept _ quiet identity).leads
    · refine answer_inStep ?_ inStep.protocol ?_
      · exact server identity _ rfl
      · apply (kept _ quiet identity).boundary sent formed
        simpa [Session.isUploadLine] using header

theorem readPayload_boundary {envelope : UploadInstallEnvelope}
    (behind : BehindHeader messages session envelope.size) :
    envelope.size ≤ session.input.length ∧ AtBoundary messages (session.readPayload envelope) := by
  obtain ⟨done, request, content, rest, whole, read, size, input⟩ := behind
  refine ⟨by simp [input, size], done ++ [.upload request content], rest, by simp [whole], ?_, ?_⟩
  · simp only [Session.readPayload, Session.record, traffic_append, read, input, size, List.take_left,
      List.flatMap_append, List.flatMap_cons, List.flatMap_nil, List.append_nil, Message.events]
    simp [traffic, Event.isTraffic]
  · simp [Session.readPayload, Session.record, input, size]

/-- The header of a well-formed upload is accepted. -/
theorem beginUpload_inStep {line : Bytes} (inStep : InStep messages session)
    (behind : BehindLine messages session line) (sent : ∀ message ∈ messages, message.Sent)
    (formed : ∀ message ∈ messages, message.WellFormed)
    (header : (tokenizeCommandLine (trimCopy line)).head? = some remoteUploadInstallCommand) :
    InStep messages (session.beginUpload (tokenizeCommandLine (trimCopy line))) := by
  obtain ⟨done, message, rest, whole, read, rfl, input⟩ := behind
  have listed : message ∈ messages := by simp [whole]
  have tokens := Message.tokens_read (sent message listed) (formed message listed)
  rw [tokens] at header ⊢
  cases message with
  | command arguments => exact absurd header (formed _ listed).2.2.2
  | typed typedLine => exact absurd header (formed _ listed).2.2
  | upload request content =>
      obtain ⟨size, fits, spaced⟩ := Message.sent_upload (sent _ listed)
      have parsed : parseUploadInstallEnvelope (Message.tokens (.upload request content)) =
          some ⟨request.size, request.filename, request.commandTemplate⟩ := by
        simp [Message.tokens, parseUploadInstallEnvelope, stoull_toDecimal (size ▸ fits),
          (formed _ listed).2.2.1, List.ne_nil_of_mem spaced]
      let reached := session.record [.uploaded session.identity]
      have uploading : BehindHeader messages reached
          (UploadInstallEnvelope.mk request.size request.filename request.commandTemplate).size := by
        refine ⟨done, request, content, rest, whole, ?_, size, input⟩
        simp [reached, Session.record, read]
        rfl
      simp only [Session.beginUpload, parsed]
      split
      · obtain ⟨enough, boundary⟩ := readPayload_boundary uploading
        rw [if_neg (by simpa [reached, Session.record] using enough)]
        exact ⟨inStep.server, inStep.protocol, boundary⟩
      · exact ⟨inStep.server, inStep.protocol, uploading⟩

theorem storeUpload_inStep {uniquePrefix : Nat} {source : ReloadSource} {envelope : UploadInstallEnvelope}
    (inStep : InStep messages session) (behind : BehindHeader messages session envelope.size) :
    InStep messages (session.storeUpload env uniquePrefix source envelope) := by
  obtain ⟨enough, boundary⟩ := readPayload_boundary behind
  simp only [Session.storeUpload]
  split
  · exact ⟨inStep.server, inStep.protocol, boundary⟩
  · split
    · exact ⟨inStep.server, inStep.protocol, boundary⟩
    · exact runCommand_inStep inStep.server inStep.protocol boundary

/-- What one step of a session keeps. -/
theorem step_inStep {input : Input} (sent : ∀ message ∈ messages, message.Sent)
    (formed : ∀ message ∈ messages, message.WellFormed)
    (unbraced : ∀ message, messages.head? = some message → braced message.text = false)
    (inStep : InStep messages session) (stepped : sessionStep env sessionId session input = some next) :
    InStep messages next := by
  cases input with
  | reload source =>
      cases stepped
      exact ⟨(afterReload_protocol _ _).trans inStep.server, inStep.protocol, inStep.phase⟩
  | read =>
      simp only [sessionStep] at stepped
      split at stepped
      · rename_i phase
        cases stepped
        exact openSession_inStep inStep phase sent formed unbraced
      · rename_i phase
        cases stepped
        exact readNext_inStep inStep phase sent formed
      · cases stepped
  | authenticate =>
      simp only [sessionStep, inStep.protocol] at stepped
      split at stepped
      · rename_i line phase _
        cases stepped
        exact authenticateText_inStep inStep phase sent formed
      · rename_i line phase other
        cases other
      · cases stepped
  | execute source =>
      simp only [sessionStep] at stepped
      split at stepped
      · rename_i line phase
        have behind := inStep.phase
        simp only [phase] at behind
        split at stepped
        · rename_i header
          cases stepped
          exact beginUpload_inStep inStep behind sent formed header.2
        · rename_i header
          cases stepped
          refine runCommand_inStep inStep.server inStep.protocol (behind.boundary sent formed fun same => ?_)
          exact header ⟨inStep.protocol, same⟩
      · cases stepped
  | store uniquePrefix source =>
      simp only [sessionStep] at stepped
      split at stepped
      · rename_i envelope phase
        have behind := inStep.phase
        simp only [phase] at behind
        cases stepped
        exact storeUpload_inStep inStep behind
      · cases stepped
  | storeFails =>
      simp only [sessionStep] at stepped
      split at stepped
      · rename_i envelope phase
        have behind := inStep.phase
        simp only [phase] at behind
        cases stepped
        exact ⟨inStep.server, inStep.protocol, (readPayload_boundary behind).2⟩
      · cases stepped

end Steps

theorem AtBoundary.complete {messages : List Message} {session : Session} (boundary : AtBoundary messages session)
    (empty : session.input = []) : traffic session.log = messages.flatMap Message.events := by
  obtain ⟨done, rest, rfl, read, input⟩ := boundary
  cases rest with
  | nil => simpa using read
  | cons message rest =>
      rw [empty, List.flatMap_cons, Message.encode] at input
      simp at input

/-- In every run of a session over well-formed messages the server reads exactly the
messages of the client, one after the other, and all of them when it has read everything
and did not close the connection. -/
theorem text_stream_in_step (env : ServerEnv) (sessionId : Nat) (server : RemoteServerState)
    (messages : List Message) (textual : server.options.remoteProtocol = .text)
    (sent : ∀ message ∈ messages, message.Sent) (formed : ∀ message ∈ messages, message.WellFormed)
    (unbraced : ∀ message, messages.head? = some message → braced message.text = false)
    (inputs : List Input) (final : Session)
    (run : runSession env sessionId (connectedSession server (messages.flatMap Message.encode)) inputs =
      some final) :
    traffic final.log <+: messages.flatMap Message.events ∧
      (final.phase = .waiting → final.input = [] → traffic final.log = messages.flatMap Message.events) := by
  have start : InStep messages (connectedSession server (messages.flatMap Message.encode)) :=
    ⟨textual, rfl, rfl, rfl⟩
  have inStep : InStep messages final :=
    runEvents_invariant (fun _ _ _ holds stepped => step_inStep sent formed unbraced holds stepped) start run
  have phase := inStep.phase
  refine ⟨?_, fun waiting empty => ?_⟩
  · cases here : final.phase with
    | connected =>
        simp only [here] at phase
        simp [phase.1, traffic]
    | waiting =>
        simp only [here] at phase
        exact phase.leads
    | received line =>
        simp only [here] at phase
        exact phase.leads
    | admitted line =>
        simp only [here] at phase
        exact phase.leads
    | storing envelope =>
        simp only [here] at phase
        obtain ⟨done, request, content, rest, whole, read, _, input⟩ := phase
        exact @BehindLine.leads messages final _
          ⟨done, .upload request content, rest, whole, read, rfl, input⟩
    | closed =>
        simp only [here] at phase
        exact phase
  · simp only [waiting] at phase
    exact phase.complete empty

/-- An upload of two bytes, one of them a line break. -/
def uploadOf (filename : Bytes) (content : Bytes) : Message :=
  .upload
    { filePath := filename, filename := filename
      commandTemplate := bytes "install rqp __REQPACK_REMOTE_UPLOAD_PATH__", size := content.length } content

theorem uploadOf_sent {filename content : Bytes} (bare : pathFilename filename = filename)
    (positions : positionalIndices [bytes "install", bytes "rqp", filename] = [1, 2])
    (sized : content.length < 2 ^ 64) : (uploadOf filename content).Sent := by
  refine ⟨fun _ => .regular content sized, [bytes "install", bytes "rqp", filename], sized, ?_, rfl⟩
  have template : uploadTemplate [bytes "install", bytes "rqp", filename] 2 =
      bytes "install rqp __REQPACK_REMOTE_UPLOAD_PATH__" := by
    change joinArguments [bytes "install", bytes "rqp", remoteUploadPathPlaceholder] = _
    decide +kernel
  have install : Config.parseActionToken (bytes "install") = .install := by decide
  simp [detectUploadInstallRequest, install, positions, template, bare]

theorem text_stream_in_step_upload :
    ∃ final, runSession listingEnv 1 (connectedSession openServer
        ([uploadOf (bytes "my app") (bytes "a\nshutdown\n"), .command [bytes "list", bytes "a b"]].flatMap
          Message.encode))
        [.read, .authenticate, .execute (.error []), .store 17 (.error []), .read, .authenticate,
          .execute (.error [])] = some final ∧
      traffic final.log =
        [uploadOf (bytes "my app") (bytes "a\nshutdown\n"), .command [bytes "list", bytes "a b"]].flatMap
          Message.events := by
  obtain ⟨final, run, ended⟩ := (Option.any_eq_true
    (fun final : Session => decide (final.phase = .waiting ∧ final.input = []))
    (runSession listingEnv 1 (connectedSession openServer
        ([uploadOf (bytes "my app") (bytes "a\nshutdown\n"), .command [bytes "list", bytes "a b"]].flatMap
          Message.encode))
        [.read, .authenticate, .execute (.error []), .store 17 (.error []), .read, .authenticate,
          .execute (.error [])])).mp (by decide +kernel)
  have done := of_decide_eq_true ended
  refine ⟨final, run, (text_stream_in_step _ _ _ _ rfl ?_ ?_ ?_ _ final run).2 done.1 done.2⟩
  · intro message member
    simp only [List.mem_cons, List.not_mem_nil, or_false] at member
    rcases member with rfl | rfl
    · exact uploadOf_sent (by decide) (by decide +kernel) (by decide)
    · exact True.intro
  · intro message member
    simp only [List.mem_cons, List.not_mem_nil, or_false] at member
    rcases member with rfl | rfl
    · exact ⟨by decide, by decide, by decide, by decide⟩
    · exact ⟨by decide, by decide, by decide, by decide⟩
  · rintro message ⟨⟩
    decide

def Event.isLineOf (tokens : List Bytes) : Event → Bool
  | .line read => read == tokens
  | _ => false

/-- A line break in the name of an uploaded file makes the server run the file as
commands. -/
theorem uploaded_file_runs :
    ¬ ∀ (env : ServerEnv) (sessionId : Nat) (server : RemoteServerState) (messages : List Message),
      server.options.remoteProtocol = .text → (∀ message ∈ messages, message.Sent) →
      ∀ (inputs : List Input) (final : Session),
        runSession env sessionId (connectedSession server (messages.flatMap Message.encode)) inputs = some final →
        traffic final.log <+: messages.flatMap Message.events := by
  intro all
  obtain ⟨final, run, ran⟩ := (Option.any_eq_true
    (fun final : Session => final.log.any (Event.isLineOf [bytes "remove", bytes "rqp", bytes "all"]))
    (runSession listingEnv 1 (connectedSession openServer
        ([uploadOf (bytes "a\nb") (bytes "\nremove rqp all\n")].flatMap Message.encode))
        [.read, .authenticate, .execute (.error []), .read, .authenticate, .execute (.error []),
          .read, .authenticate, .execute (.error []), .read])).mp (by decide +kernel)
  have prefixed := all listingEnv 1 openServer [uploadOf (bytes "a\nb") (bytes "\nremove rqp all\n")] rfl
    (by
      intro message member
      rw [List.mem_singleton.mp member]
      exact uploadOf_sent (by decide) (by decide +kernel) (by decide)) _ final run
  obtain ⟨event, member, read⟩ := List.any_eq_true.mp ran
  have listed : event ∈ traffic final.log := by
    rw [traffic, List.mem_filter]
    cases event with
    | line tokens => exact ⟨member, rfl⟩
    | _ => cases read
  have meant := prefixed.subset listed
  simp only [List.flatMap_cons, List.flatMap_nil, List.append_nil, uploadOf, Message.events, List.mem_cons,
    List.not_mem_nil, or_false] at meant
  rcases meant with rfl | rfl
  · revert read
    decide
  · cases read

end ReqPack.Remote
