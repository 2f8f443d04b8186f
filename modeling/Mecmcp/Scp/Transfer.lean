import Mathlib

/-!
# Transfer — uploads and downloads over one exec channel

The messages of the channel are a queue, and `wait` on an empty queue is a closed channel.  A
session is the reader with its buffer, the messages not yet taken and what was sent.  Cancellation
and failing local files are left out: each of them ends the call with an error.

Text is bytes.  What the standard library does with it (whether bytes are UTF-8, the lower-case
form of a message) is a `TextRules`.
-/

namespace Mecmcp.Scp

abbrev Bytes : Type := List UInt8

def ascii (text : String) : Bytes := text.toList.map fun c => UInt8.ofNat c.toNat

/-- Functions of the standard library on text. -/
structure TextRules where
  validUtf8 : Bytes → Bool
  toLowercase : Bytes → Bytes

/-- `ChannelMsg`: `other` stands for the messages every loop skips (window changes and the like). -/
inductive ChannelMsg where
  | data (data : Bytes)
  | eof
  | close
  | success
  | failure
  | exitStatus (exitStatus : ℕ)
  | exitSignal (signalName : String) (coreDumped : Bool)
  | other
  deriving DecidableEq, Repr

inductive IoErrorKind where
  | permissionDenied
  | storageFull
  | notFound
  | invalidInput
  | unexpectedEof
  deriving DecidableEq, Repr

/-- An error with its text, and the bytes the text ends with. -/
inductive ScpError where
  | io (kind : IoErrorKind) (text : String) (detail : Bytes)
  | channel (text : String) (detail : Bytes)
  | channelClosed (text : String)
  deriving DecidableEq, Repr

def chunkSize : ℕ := 64 * 1024

def maxControlLineLength : ℕ := 16 * 1024

/-! ### The buffered reader -/

structure ChannelReader where
  buffer : Bytes
  pos : ℕ
  deriving DecidableEq, Repr

structure Session where
  reader : ChannelReader
  queue : List ChannelMsg
  sent : List Bytes
  deriving DecidableEq, Repr

abbrev Ready : Type := { session : Session // session.reader.pos < session.reader.buffer.length }

/-- `ChannelReader::fill`: the next data that is not empty, and the messages behind it. -/
def fill : List ChannelMsg → Except ScpError ({ data : Bytes // data ≠ [] } × List ChannelMsg)
  | [] => .error (.channelClosed "channel closed while reading")
  | .data data :: queue => if h : data = [] then fill queue else .ok (⟨data, h⟩, queue)
  | .eof :: _ => .error (.channelClosed "channel closed while reading")
  | .close :: _ => .error (.channelClosed "channel closed while reading")
  | .success :: queue => fill queue
  | .failure :: queue => fill queue
  | .exitStatus _ :: queue => fill queue
  | .exitSignal _ _ :: queue => fill queue
  | .other :: queue => fill queue

/-- The buffer is filled when it has been read. -/
def Session.ready (session : Session) : Except ScpError Ready :=
  if h : session.reader.pos < session.reader.buffer.length then .ok ⟨session, h⟩
  else
    match fill session.queue with
    | .error error => .error error
    | .ok (data, queue) =>
      .ok ⟨{ session with reader := ⟨data.1, 0⟩, queue := queue }, List.length_pos_of_ne_nil data.2⟩

/-- The reader moved on by `count` bytes. -/
def Session.advance (session : Session) (count : ℕ) : Session :=
  { session with reader := ⟨session.reader.buffer, session.reader.pos + count⟩ }

def readByte (session : Session) : Except ScpError (UInt8 × Session) :=
  match session.ready with
  | .error error => .error error
  | .ok ready =>
    .ok (ready.1.reader.buffer.get ⟨ready.1.reader.pos, ready.2⟩, ready.1.advance 1)

/-- `read_exact`, with `filled` read and `missing` bytes to go. -/
def readExact (filled : Bytes) (missing : ℕ) (session : Session) :
    Except ScpError (Bytes × Session) :=
  if missing = 0 then .ok (filled, session)
  else
    match session.ready with
    | .error error => .error error
    | .ok ready =>
      let available := min missing (ready.1.reader.buffer.length - ready.1.reader.pos)
      readExact (filled ++ (ready.1.reader.buffer.drop ready.1.reader.pos).take available)
        (missing - available) (ready.1.advance available)
termination_by missing
decreasing_by
  have _hready := ready.2
  omega

variable (rules : TextRules)

/-- `read_line`, with `line` read. -/
def readLine (line : Bytes) (session : Session) : Except ScpError (Bytes × Session) :=
  match readByte session with
  | .error error => .error error
  | .ok (byte, session) =>
    if byte = 10 then
      if rules.validUtf8 line then .ok (line, session)
      else .error (.channel "SCP server sent non-UTF-8 message" [])
    else if _hlength : maxControlLineLength < line.length + 1 then
      .error (.channel "SCP control line exceeded maximum length of 16384 bytes" [])
    else readLine (line ++ [byte]) session
termination_by maxControlLineLength - line.length
decreasing_by
  rw [List.length_append, List.length_singleton]
  omega

inductive Ack where
  | success
  | warning (message : Bytes)
  | error (message : Bytes)
  deriving DecidableEq, Repr

def readAck (session : Session) : Except ScpError (Ack × Session) :=
  match readByte session with
  | .error error => .error error
  | .ok (byte, session) =>
    if byte = 0 then .ok (.success, session)
    else if byte = 1 ∨ byte = 2 then
      match readLine rules [] session with
      | .error error => .error error
      | .ok (message, session) => .ok (if byte = 1 then .warning message else .error message, session)
    else .error (.channel "invalid SCP ack byte: " [byte])

def scpError (message : Bytes) : ScpError :=
  let lower := rules.toLowercase message
  if ascii "permission denied" <:+: lower then .io .permissionDenied "" message
  else if ascii "no space left" <:+: lower ∨ ascii "disk full" <:+: lower then
    .io .storageFull "" message
  else if ascii "no such file" <:+: lower ∨ ascii "not found" <:+: lower then .io .notFound "" message
  else .channel "SCP error: " message

def expectSuccess (session : Session) : Except ScpError Session :=
  match readAck rules session with
  | .error error => .error error
  | .ok (.success, session) => .ok session
  | .ok (.warning message, _) => .error (scpError rules message)
  | .ok (.error message, _) => .error (scpError rules message)

/-! ### Header lines -/

/-- The number a text of digits stands for. -/
def digitsValue (radix : ℕ) (digits : Bytes) : ℕ :=
  digits.foldl (fun value digit => value * radix + (digit.toNat - 48)) 0

/-- A text of digits below `radix`. -/
def AllDigits (radix : ℕ) (digits : Bytes) : Prop :=
  digits ≠ [] ∧ ∀ digit ∈ digits, 48 ≤ digit.toNat ∧ digit.toNat < 48 + radix

instance (radix : ℕ) (digits : Bytes) : Decidable (AllDigits radix digits) :=
  inferInstanceAs (Decidable (_ ∧ _))

/-- The integer parsers of the standard library, for a radix up to ten: an optional plus sign and
digits, of a number below `bound`. -/
def parseRadix (radix bound : ℕ) (text : Bytes) : Option ℕ :=
  let digits := if text.head? = some 43 then text.tail else text
  if AllDigits radix digits ∧ digitsValue radix digits < bound then some (digitsValue radix digits)
  else none

/-- The text before and after the first space. -/
def splitSpace : Bytes → Option (Bytes × Bytes)
  | [] => none
  | byte :: rest =>
    if byte = 32 then some ([], rest)
    else (splitSpace rest).map fun parts => (byte :: parts.1, parts.2)

/-- `strip_suffix` of one line feed. -/
def stripNewline (line : Bytes) : Bytes := if line.getLast? = some 10 then line.dropLast else line

def parseCHeader (line : Bytes) : Except ScpError (ℕ × ℕ × Bytes) :=
  let line := stripNewline line
  match splitSpace line with
  | none => .error (.channel "invalid SCP C header: " line)
  | some (first, rest) =>
    match splitSpace rest with
    | none => .error (.channel "invalid SCP C header: " line)
    | some (size, name) =>
      match first with
      | 67 :: mode =>
        match parseRadix 8 (2 ^ 32) mode with
        | none => .error (.channel "invalid mode in C header: " first)
        | some mode =>
          match parseRadix 10 (2 ^ 64) size with
          | none => .error (.channel "invalid file size in C header: " size)
          | some size => .ok (mode, size, name)
      | _ => .error (.channel "invalid SCP C header: " line)

/-! ### The phases both transfers share -/

/-- The reply to the exec request: the data that came in its place, if any, and the messages behind
it. -/
def execReply : List ChannelMsg → Except ScpError (Bytes × List ChannelMsg)
  | [] => .error (.channelClosed "channel closed before exec response")
  | .success :: queue => .ok ([], queue)
  | .failure :: _ => .error (.channel "server rejected exec request" [])
  | .data data :: queue => .ok (data, queue)
  | .close :: _ => .error (.channelClosed "channel closed before exec response")
  | .eof :: _ => .error (.channelClosed "channel closed before exec response")
  | .exitStatus _ :: queue => execReply queue
  | .exitSignal _ _ :: queue => execReply queue
  | .other :: queue => execReply queue

def startSession (messages : List ChannelMsg) : Except ScpError Session :=
  match execReply messages with
  | .error error => .error error
  | .ok (data, queue) => .ok { reader := ⟨data, 0⟩, queue := queue, sent := [] }

def waitExitStatus : List ChannelMsg → Except ScpError (ℕ × List ChannelMsg)
  | [] => .ok (0, [])
  | .exitStatus exitStatus :: queue => .ok (exitStatus, queue)
  | .exitSignal signalName coreDumped :: _ =>
    .error (.channel ("remote process killed by signal " ++ signalName ++ " (core dumped: " ++
      toString coreDumped ++ ")") [])
  | .close :: queue => .ok (0, queue)
  | .data _ :: queue => waitExitStatus queue
  | .eof :: queue => waitExitStatus queue
  | .success :: queue => waitExitStatus queue
  | .failure :: queue => waitExitStatus queue
  | .other :: queue => waitExitStatus queue

/-- The end of both transfers: the messages left when the exit status was zero. -/
def finish (queue : List ChannelMsg) : Except ScpError (List ChannelMsg) :=
  match waitExitStatus queue with
  | .error error => .error error
  | .ok (exitStatus, queue) =>
    if exitStatus ≠ 0 then
      .error (.channel ("scp command exited with status " ++ toString exitStatus) [])
    else .ok queue

def Session.send (session : Session) (data : Bytes) : Session :=
  { session with sent := session.sent ++ [data] }

structure ScpOutcome where
  bytesTransferred : ℕ
  serverMessages : List Bytes
  deriving DecidableEq, Repr

/-! ### Download -/

/-- The loop over the payload, with `written` in the file and `missing` bytes to go. -/
def receive (written : Bytes) (missing : ℕ) (session : Session) :
    Except ScpError (Bytes × Session) :=
  if missing = 0 then .ok (written, session)
  else
    match readExact [] (min missing chunkSize) session with
    | .error error => .error error
    | .ok (data, session) =>
      receive (written ++ data) (missing - min missing chunkSize) session
termination_by missing
decreasing_by
  simp only [chunkSize]
  omega

/-- A download up to the wait for the exit status: what was written. -/
def downloadBody (messages : List ChannelMsg) : Except ScpError (Bytes × Session) :=
  match startSession messages with
  | .error error => .error error
  | .ok session =>
    match readLine rules [] (session.send [0]) with
    | .error error => .error error
    | .ok (header, session) =>
      if header.head? = some 1 ∨ header.head? = some 2 then .error (scpError rules header.tail)
      else
        match parseCHeader header with
        | .error error => .error error
        | .ok (_, fileSize, remoteName) =>
          if 47 ∈ remoteName then
            .error (.io .invalidInput "server sent unsafe filename: " remoteName)
          else
            match receive [] fileSize (session.send [0]) with
            | .error error => .error error
            | .ok (written, session) =>
              match expectSuccess rules session with
              | .error error => .error error
              | .ok session => .ok (written, session.send [0])

/-- What a call that returned has done: its outcome, the bytes written, the payloads sent and the
messages it did not take. -/
structure Transfer where
  outcome : ScpOutcome
  written : Bytes
  sent : List Bytes
  rest : List ChannelMsg
  deriving DecidableEq, Repr

def download (messages : List ChannelMsg) : Except ScpError Transfer :=
  match downloadBody rules messages with
  | .error error => .error error
  | .ok (written, session) =>
    match finish session.queue with
    | .error error => .error error
    | .ok rest => .ok ⟨⟨written.length, []⟩, written, session.sent, rest⟩

/-! ### Upload -/

/-- A local file: its metadata and content, and how much one `read` gives.  The content is not
tied to `size`: the file may change after its metadata was read. -/
structure LocalFile where
  basename : Bytes
  size : ℕ
  mode : ℕ
  mtime : ℤ
  atime : ℤ
  content : Bytes
  readLimit : ℕ → ℕ

def decimal (n : ℕ) : Bytes := (Nat.toDigits 10 n).map fun c => UInt8.ofNat c.toNat

/-- `{:04o}` of a number of at most four octal digits. -/
def octal4 (n : ℕ) : Bytes :=
  [n / 512 % 8, n / 64 % 8, n / 8 % 8, n % 8].map fun digit => UInt8.ofNat (48 + digit)

/-- `T<mtime> 0 <atime> 0`, with times before 1970 as zero. -/
def tHeader (file : LocalFile) : Bytes :=
  84 :: decimal file.mtime.toNat ++ ascii " 0 " ++ decimal file.atime.toNat ++ ascii " 0\n"

/-- `C<mode> <size> <name>`. -/
def cHeader (file : LocalFile) : Bytes :=
  67 :: octal4 (file.mode % 512) ++ 32 :: decimal file.size ++ 32 :: file.basename ++ [10]

/-- The loop over the content of the file. -/
def streamFile (file : LocalFile) (sent : ℕ) (session : Session) :
    Except ScpError (ℕ × Session) :=
  if sent < file.size then
    let toRead := min (file.size - sent) chunkSize
    -- a read gives at least one byte unless the file is at its end
    let data := (file.content.drop sent).take (min toRead (file.readLimit sent + 1))
    if _hdata : data = [] then .error (.io .unexpectedEof "local file ended early" [])
    else streamFile file (sent + data.length) (session.send data)
  else .ok (sent, session)
termination_by file.size - sent
decreasing_by
  have hpos := List.length_pos_of_ne_nil _hdata
  simp only [data, toRead] at hpos ⊢
  omega

/-- An upload up to the wait for the exit status: the number of bytes sent and the warnings. -/
def uploadBody (file : LocalFile) (messages : List ChannelMsg) :
    Except ScpError (ScpOutcome × Session) :=
  if 10 ∈ file.basename then .error (.io .invalidInput "filename contains newline: " file.basename)
  else
    match startSession messages with
    | .error error => .error error
    | .ok session =>
      match expectSuccess rules session with
      | .error error => .error error
      | .ok session =>
        match expectSuccess rules (session.send (tHeader file)) with
        | .error error => .error error
        | .ok session =>
          match expectSuccess rules (session.send (cHeader file)) with
          | .error error => .error error
          | .ok session =>
            match streamFile file 0 session with
            | .error error => .error error
            | .ok (sent, session) =>
              match expectSuccess rules (session.send [0]) with
              | .error error => .error error
              | .ok session =>
                match readAck rules (session.send (ascii "E\n")) with
                | .error error => .error error
                | .ok (.error message, _) => .error (scpError rules message)
                | .ok (.warning message, session) => .ok (⟨sent, [message]⟩, session)
                | .ok (.success, session) => .ok (⟨sent, []⟩, session)

def upload (file : LocalFile) (messages : List ChannelMsg) : Except ScpError Transfer :=
  match uploadBody rules file messages with
  | .error error => .error error
  | .ok (outcome, session) =>
    match finish session.queue with
    | .error error => .error error
    | .ok rest => .ok ⟨outcome, [], session.sent, rest⟩

end Mecmcp.Scp
