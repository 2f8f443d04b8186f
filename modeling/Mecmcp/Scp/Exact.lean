import Mecmcp.Scp.Reports

/-!
# Exact — transfers are exact under any packetisation

A download whose channel carries a C header, the payload it announces and a zero byte writes that
payload, however the data is cut into messages, as long as the remote reports no failure
(`download_exact`).  An upload that succeeds has sent its two header lines, the first bytes of the
file, a zero byte and the end of the session (`upload_sent`), and the C line reads back as the mode,
the size and the name (`parseCHeader_cHeader`).
-/

namespace Mecmcp.Scp

open List

variable {messages : List ChannelMsg} {radix : ℕ} {digits mode size name : Bytes}

def allData (messages : List ChannelMsg) : Bytes :=
  messages.flatMap fun
    | .data data => data
    | _ => []

/-- The end of the channel, in one direction or in both. -/
def closes : ChannelMsg → Bool
  | .eof => true
  | .close => true
  | _ => false

theorem dataUntilClose_eq_allData (h : ∀ message ∈ messages, closes message = false) :
    dataUntilClose messages = allData messages := by
  induction messages with
  | nil => rfl
  | cons message messages ih =>
    have hrest := ih fun m hm => h m (mem_cons_of_mem _ hm)
    have hfirst := h message mem_cons_self
    rcases message with data | _ | _ | _ | _ | code | ⟨name, dumped⟩ | _
    case eof => simp [closes] at hfirst
    case close => simp [closes] at hfirst
    all_goals simp [dataUntilClose, allData, hrest]

/-! ### Messages without a report -/

def reportsFailure : ChannelMsg → Bool
  | .failure => true
  | .exitStatus exitStatus => exitStatus ≠ 0
  | .exitSignal _ _ => true
  | _ => false

theorem execRefused_of_quiet (hquiet : ∀ message ∈ messages, reportsFailure message = false) :
    execRefused messages = false := by
  fun_induction execRefused messages with
  | case1 => simpa [reportsFailure] using hquiet _ mem_cons_self
  | case2 _ _ ih | case3 _ _ _ ih | case4 _ ih =>
    exact ih fun m hm => hquiet m (mem_cons_of_mem _ hm)
  | case5 => rfl

theorem failsExit_of_quiet {message : ChannelMsg} (h : reportsFailure message = false) :
    failsExit message = false := by
  cases message <;> first | rfl | exact h

theorem finish_of_quiet {queue : List ChannelMsg}
    (hquiet : ∀ message ∈ queue, reportsFailure message = false) :
    ∃ rest, finish queue = .ok rest :=
  finish_of_endsWell fun message hmessage =>
    failsExit_of_quiet (hquiet message (mem_of_find?_eq_some hmessage))

/-! ### Header lines -/

theorem splitSpace_append {front : Bytes} (hfront : 32 ∉ front) (rest : Bytes) :
    splitSpace (front ++ 32 :: rest) = some (front, rest) := by
  induction front with
  | nil => simp [splitSpace]
  | cons byte front ih =>
    have hbyte : byte ≠ 32 := fun heq => hfront (heq ▸ mem_cons_self)
    have hrest : 32 ∉ front := fun hmem => hfront (mem_cons_of_mem _ hmem)
    rw [cons_append, splitSpace, if_neg hbyte, ih hrest]
    rfl

theorem AllDigits.not_mem (h : AllDigits radix digits) {byte : UInt8}
    (hbyte : byte.toNat < 48) : byte ∉ digits := fun hmem => by
  have hge := (h.2 byte hmem).1
  omega

theorem parseRadix_digits {bound : ℕ} (h : AllDigits radix digits)
    (hbound : digitsValue radix digits < bound) :
    parseRadix radix bound digits = some (digitsValue radix digits) := by
  have hplus : digits.head? ≠ some 43 := by
    intro hhead
    exact h.not_mem (show (43 : UInt8).toNat < 48 by decide) (mem_of_mem_head? hhead)
  rw [parseRadix]
  simp only [if_neg hplus]
  exact if_pos ⟨h, hbound⟩

theorem headerLine_not_mem (hmode : AllDigits 8 mode)
    (hsize : AllDigits 10 size) (hname : 10 ∉ name) :
    10 ∉ 67 :: mode ++ 32 :: (size ++ 32 :: name) := by
  intro hmem
  simp only [cons_append, mem_cons, mem_append] at hmem
  rcases hmem with h | h | h | h | h | h
  · exact absurd h (by decide)
  · exact hmode.not_mem (by decide) h
  · exact absurd h (by decide)
  · exact hsize.not_mem (by decide) h
  · exact absurd h (by decide)
  · exact hname h

theorem stripNewline_of_not_mem {line : Bytes} (h : 10 ∉ line) : stripNewline line = line :=
  if_neg fun hlast => h (mem_of_getLast? hlast)

theorem stripNewline_append (line : Bytes) : stripNewline (line ++ [10]) = line := by
  rw [stripNewline, if_pos getLast?_concat, dropLast_concat]

theorem parseCHeader_line (hmode : AllDigits 8 mode)
    (hmodeBound : digitsValue 8 mode < 2 ^ 32) (hsize : AllDigits 10 size)
    (hsizeBound : digitsValue 10 size < 2 ^ 64) (hname : 10 ∉ name) :
    parseCHeader (67 :: mode ++ 32 :: (size ++ 32 :: name)) =
      .ok (digitsValue 8 mode, digitsValue 10 size, name) := by
  have hspace : ∀ {radix : ℕ} {digits : Bytes}, AllDigits radix digits → 32 ∉ digits :=
    fun h => h.not_mem (by decide)
  have hfirst : 32 ∉ 67 :: mode := by
    rw [mem_cons, not_or]
    exact ⟨by decide, hspace hmode⟩
  rw [parseCHeader]
  simp only [stripNewline_of_not_mem (headerLine_not_mem hmode hsize hname),
    splitSpace_append hfirst, splitSpace_append (hspace hsize),
    parseRadix_digits hmode hmodeBound, parseRadix_digits hsize hsizeBound]

/-! ### Download -/

variable {rules : TextRules}
variable {more : Bytes} {file : LocalFile} {session session' : Session}

/-- **Downloads are exact.**  Whatever the messages, when their data is a C header, the payload it
announces and a zero byte, and none closes the channel or reports a failure, the payload is written
and its size reported. -/
theorem download_exact {mode size name payload : Bytes}
    (hopen : ∀ message ∈ messages, closes message = false)
    (hquiet : ∀ message ∈ messages, reportsFailure message = false) (hdata : allData messages =
      67 :: mode ++ 32 :: (size ++ 32 :: name) ++ 10 :: (payload ++ 0 :: more))
    (hmode : AllDigits 8 mode) (hmodeBound : digitsValue 8 mode < 2 ^ 32)
    (hsize : AllDigits 10 size) (hsizeBound : digitsValue 10 size < 2 ^ 64)
    (hpayload : digitsValue 10 size = payload.length) (hname : 10 ∉ name ∧ 47 ∉ name)
    (hlength : (67 :: mode ++ 32 :: (size ++ 32 :: name)).length ≤ maxControlLineLength)
    (hvalid : rules.validUtf8 (67 :: mode ++ 32 :: (size ++ 32 :: name)) = true) :
    ∃ transfer, download rules messages = .ok transfer ∧ transfer.written = payload ∧
      transfer.outcome.bytesTransferred = payload.length := by
  have hcarries : CarriesFile rules messages payload _ :=
    ⟨execRefused_of_quiet hquiet, _, _, name, more, (dataUntilClose_eq_allData hopen).trans hdata,
      headerLine_not_mem hmode hsize hname.1, hlength, hvalid, by simp, by simp,
      by rw [← hpayload]; exact parseCHeader_line hmode hmodeBound hsize hsizeBound hname.1, hname.2,
      rfl⟩
  obtain ⟨session, hbody⟩ := downloadBody_of_carries hcarries
  obtain ⟨-, -, -, hsuffix⟩ := downloadBody_ok hbody
  obtain ⟨rest, hfinish⟩ := finish_of_quiet fun m hm => hquiet m (hsuffix.mem hm)
  exact ⟨_, download_iff.mpr ⟨_, _, _, hbody, hfinish, rfl⟩, rfl, rfl⟩

/-! ### Upload -/

theorem streamFile_sent {sent sent' : ℕ}
    (hsent : sent ≤ file.size) (h : streamFile file sent session = .ok (sent', session')) :
    sent' = file.size ∧
      session'.sent.flatten = session.sent.flatten ++ (file.content.take file.size).drop sent := by
  fun_induction streamFile file sent session with
  | case1 => simp at h
  | case2 sent session hlt toRead data hdata ih =>
    have hlength : data.length ≤ toRead := by
      simp only [data, length_take]
      omega
    have hbound : sent + data.length ≤ file.size := by
      simp only [toRead] at hlength
      omega
    obtain ⟨hend, hflat⟩ := ih hbound h
    refine ⟨hend, ?_⟩
    rw [hflat, Session.send, flatten_append, flatten_singleton, append_assoc]
    congr 1
    -- what was read is the front of what is left of the first `size` bytes
    have hdata' : data = ((file.content.take file.size).drop sent).take data.length := by
      rw [drop_take, take_take, Nat.min_eq_left (by omega)]
      simp only [data]
      rw [length_take, length_drop, take_eq_take_iff, length_drop]
      omega
    have hsplit := take_append_drop data.length ((file.content.take file.size).drop sent)
    rw [← hdata', drop_drop] at hsplit
    exact hsplit
  | case3 sent session hge =>
    obtain ⟨rfl, rfl⟩ := Prod.mk.inj (Except.ok.inj h)
    have heq : sent = file.size := by omega
    refine ⟨heq, ?_⟩
    rw [drop_eq_nil_of_le (by rw [length_take]; omega), append_nil]

theorem upload_sent {transfer : Transfer} (h : upload rules file messages = .ok transfer) :
    transfer.sent.flatten =
        tHeader file ++ (cHeader file ++ (file.content.take file.size ++ 0 :: ascii "E\n")) ∧
      transfer.outcome.bytesTransferred = file.size := by
  obtain ⟨outcome, session, rest, hbody, -, rfl⟩ := upload_iff.mp h
  obtain ⟨-, s₀, s₁, s₂, s₃, s₄, s₅, ack, hstart, h₁, h₂, h₃, h₄, h₅, -, hlast⟩ :=
    uploadBody_ok hbody
  obtain ⟨-, hempty, -⟩ := startSession_ok hstart
  obtain ⟨hsize, hstream⟩ := streamFile_sent (Nat.zero_le _) h₄
  refine ⟨?_, hsize⟩
  have e₁ : s₁.sent = [] := h₁.sent.trans hempty
  have e₂ : s₂.sent = s₁.sent ++ [tHeader file] := h₂.sent
  have e₃ : s₃.sent = s₂.sent ++ [cHeader file] := h₃.sent
  have e₅ : s₅.sent = s₄.sent ++ [[0]] := h₅.sent
  have e₆ : session.sent = s₅.sent ++ [ascii "E\n"] := hlast.sent
  rw [e₆, e₅, flatten_append, flatten_append, hstream, e₃, e₂, e₁]
  simp

theorem upload_of_acks (hname : 10 ∉ file.basename) (hcontent : file.size ≤ file.content.length)
    (hopen : ∀ message ∈ messages, closes message = false)
    (hquiet : ∀ message ∈ messages, reportsFailure message = false)
    (hdata : allData messages = 0 :: 0 :: 0 :: 0 :: 0 :: more) :
    ∃ transfer, upload rules file messages = .ok transfer := by
  have hacks : AcksUpload rules file messages _ :=
    ⟨hname, hcontent, execRefused_of_quiet hquiet, [0], more,
      (dataUntilClose_eq_allData hopen).trans hdata, .inl rfl, rfl⟩
  obtain ⟨outcome, session, hbody⟩ := uploadBody_of_acks hacks
  obtain ⟨-, -, -, hsuffix⟩ := uploadBody_acks hbody
  obtain ⟨rest, hfinish⟩ := finish_of_quiet fun m hm => hquiet m (hsuffix.mem hm)
  exact ⟨_, upload_iff.mpr ⟨_, _, _, hbody, hfinish, rfl⟩⟩

/-! ### The C line reads back -/

theorem toNat_ofNat_of_lt {n : ℕ} (h : n < 256) : (UInt8.ofNat n).toNat = n := by
  rw [UInt8.toNat_ofNat', Nat.mod_eq_of_lt h]

theorem digit_bounds {c : Char} (h : c.isDigit = true) : 48 ≤ c.toNat ∧ c.toNat < 58 := by
  simp only [Char.isDigit, Bool.and_eq_true, decide_eq_true_eq, UInt32.le_iff_toNat_le] at h
  have h48 : '0'.val.toNat = 48 := rfl
  have h57 : '9'.val.toNat = 57 := rfl
  obtain ⟨hlo, hhi⟩ := h
  have hnat : c.val.toNat = c.toNat := rfl
  omega

theorem foldl_digits {chars : List Char} (h : ∀ c ∈ chars, c.isDigit = true) (value : ℕ) :
    (chars.map fun c => UInt8.ofNat c.toNat).foldl
        (fun value digit => value * 10 + (digit.toNat - 48)) value =
      Nat.ofDigitChars 10 chars value := by
  induction chars generalizing value with
  | nil => rfl
  | cons c chars ih =>
    have hc := digit_bounds (h c mem_cons_self)
    rw [map_cons, foldl_cons, ih fun c hc => h c (mem_cons_of_mem _ hc),
      toNat_ofNat_of_lt (by omega), Nat.ofDigitChars_cons, Nat.mul_comm value 10]
    rfl

theorem decimal_spec (n : ℕ) : AllDigits 10 (decimal n) ∧ digitsValue 10 (decimal n) = n := by
  have hdigits : ∀ c ∈ Nat.toDigits 10 n, c.isDigit = true :=
    fun c hc => Nat.isDigit_of_mem_toDigits (by decide) (by decide) hc
  refine ⟨⟨?_, ?_⟩, ?_⟩
  · rw [decimal, ne_eq, map_eq_nil_iff]
    exact Nat.toDigits_ne_nil
  · intro digit hmem
    obtain ⟨c, hc, rfl⟩ := mem_map.mp hmem
    have hbounds := digit_bounds (hdigits c hc)
    rw [toNat_ofNat_of_lt (by omega)]
    omega
  · rw [digitsValue, decimal, foldl_digits hdigits,
      Nat.ofDigitChars_toDigits (by decide) (by decide)]

theorem octal4_spec {n : ℕ} (h : n < 4096) :
    AllDigits 8 (octal4 n) ∧ digitsValue 8 (octal4 n) = n := by
  have hdigit (d : ℕ) : (UInt8.ofNat (48 + d % 8)).toNat = 48 + d % 8 := toNat_ofNat_of_lt (by omega)
  refine ⟨⟨by simp [octal4], ?_⟩, ?_⟩
  · intro digit hmem
    simp only [octal4, map_cons, map_nil, mem_cons, not_mem_nil, or_false]
      at hmem
    rcases hmem with rfl | rfl | rfl | rfl
    all_goals
      rw [hdigit]
      omega
  · simp only [digitsValue, octal4, map_cons, map_nil, foldl_cons, foldl_nil,
      hdigit]
    omega

/-- **The C line of an upload reads back** as the mode, the size and the name. -/
theorem parseCHeader_cHeader {file : LocalFile} (hname : 10 ∉ file.basename)
    (hsize : file.size < 2 ^ 64) :
    parseCHeader (cHeader file) = .ok (file.mode % 512, file.size, file.basename) := by
  obtain ⟨hmode, hmodeValue⟩ := @octal4_spec (file.mode % 512) (by omega)
  obtain ⟨hdigits, hvalue⟩ := decimal_spec file.size
  have hline := parseCHeader_line hmode (by rw [hmodeValue]; omega) hdigits
    (by rw [hvalue]; exact hsize) hname
  have hstrip : stripNewline (cHeader file) = stripNewline
      (67 :: octal4 (file.mode % 512) ++ 32 :: (decimal file.size ++ 32 :: file.basename)) := by
    have happend : cHeader file = 67 :: octal4 (file.mode % 512) ++
        32 :: (decimal file.size ++ 32 :: file.basename) ++ [10] := by simp [cHeader]
    rw [happend, stripNewline_append,
      stripNewline_of_not_mem (headerLine_not_mem hmode hdigits hname)]
  rw [hmodeValue, hvalue] at hline
  rw [← hline, parseCHeader, parseCHeader, hstrip]

/-! ### Both directions -/

/-- **Transfers are exact under any packetisation.**  A download whose messages carry a C header,
the payload and a zero byte writes the payload and reports its size, however the data is cut, when
no message closes the channel or reports a failure, the line is UTF-8 and its numbers fit.  An
upload that succeeds has sent its T line, its C line, the first bytes of the file, a zero byte and
the end of the session, it succeeds when it is acknowledged with zero bytes, and the C line reads
back. -/
theorem scp_transfers_exact (rules : TextRules) :
    (∀ (messages : List ChannelMsg) (mode size name payload more : Bytes),
      (∀ message ∈ messages, closes message = false ∧ reportsFailure message = false) →
      allData messages =
        67 :: mode ++ 32 :: (size ++ 32 :: name) ++ 10 :: (payload ++ 0 :: more) →
      AllDigits 8 mode → digitsValue 8 mode < 2 ^ 32 → AllDigits 10 size →
      digitsValue 10 size < 2 ^ 64 → digitsValue 10 size = payload.length →
      10 ∉ name ∧ 47 ∉ name →
      (67 :: mode ++ 32 :: (size ++ 32 :: name)).length ≤ maxControlLineLength →
      rules.validUtf8 (67 :: mode ++ 32 :: (size ++ 32 :: name)) = true →
      ∃ transfer, download rules messages = .ok transfer ∧ transfer.written = payload ∧
        transfer.outcome.bytesTransferred = payload.length) ∧
    (∀ (file : LocalFile) (messages : List ChannelMsg),
      (∀ transfer, upload rules file messages = .ok transfer →
        transfer.sent.flatten =
          tHeader file ++ (cHeader file ++ (file.content.take file.size ++ 0 :: ascii "E\n"))) ∧
      (∀ more, (∀ message ∈ messages, closes message = false ∧ reportsFailure message = false) →
        allData messages = 0 :: 0 :: 0 :: 0 :: 0 :: more → 10 ∉ file.basename →
        file.size ≤ file.content.length → ∃ transfer, upload rules file messages = .ok transfer) ∧
      (10 ∉ file.basename → file.size < 2 ^ 64 →
        parseCHeader (cHeader file) = .ok (file.mode % 512, file.size, file.basename))) := by
  constructor
  · intro messages mode size name payload more hmessages hdata hmode hmodeBound hsize hsizeBound
      hpayload hname hlength hvalid
    exact download_exact (fun m hm => (hmessages m hm).1) (fun m hm => (hmessages m hm).2) hdata
      hmode hmodeBound hsize hsizeBound hpayload hname hlength hvalid
  · intro file messages
    refine ⟨fun transfer hok => (upload_sent hok).1, ?_, parseCHeader_cHeader⟩
    intro more hmessages hdata hname hcontent
    exact upload_of_acks hname hcontent (fun m hm => (hmessages m hm).1)
      (fun m hm => (hmessages m hm).2) hdata

def oneByteFile : LocalFile := ⟨ascii "a", 1, 0o644, 0, 0, ascii "x", fun _ => 0⟩

/-- One byte in one file: the download is cut inside the header, with an empty message in front of
the exec reply, and the upload is acknowledged in two messages. -/
theorem one_byte_transfers :
    (∃ transfer, download asciiRules
        [.data [], .success, .data (ascii "C0644 "), .other, .data (ascii "1 a\nx"), .data [0]] =
        .ok transfer ∧ transfer.written = ascii "x" ∧ transfer.outcome.bytesTransferred = 1) ∧
    ∃ transfer, upload asciiRules oneByteFile [.success, .data [0, 0], .other, .data [0, 0, 0]] =
        .ok transfer ∧
      transfer.sent.flatten = ascii "T0 0 0 0\nC0644 1 a\nx" ++ 0 :: ascii "E\n" := by
  obtain ⟨hdownload, hupload⟩ := scp_transfers_exact asciiRules
  constructor
  · have hdigits : AllDigits 8 (ascii "0644") ∧ AllDigits 10 (ascii "1") := by decide +kernel
    exact hdownload _ (ascii "0644") (ascii "1") (ascii "a") (ascii "x") []
      (by decide) (by decide) hdigits.1 (by decide) hdigits.2 (by decide) (by decide) (by decide)
      (by decide) (by decide)
  · obtain ⟨hsent, hacks, -⟩ := hupload oneByteFile
      [.success, .data [0, 0], .other, .data [0, 0, 0]]
    obtain ⟨transfer, hok⟩ := hacks [] (by decide) (by decide) (by decide) (by decide)
    refine ⟨transfer, hok, (hsent transfer hok).trans ?_⟩
    decide +kernel

/-- No message closes the channel in these, and the download fails: the remote command exits with
status 1 after a complete payload, the header is not UTF-8, or its size does not fit. -/
theorem failed_command_fails_download :
    ((∀ message ∈ [ChannelMsg.success, .data (ascii "C0644 1 a\nx"), .data [0], .exitStatus 1],
      closes message = false) ∧
    allData [.success, .data (ascii "C0644 1 a\nx"), .data [0], .exitStatus 1] =
      67 :: ascii "0644" ++ 32 :: (ascii "1" ++ 32 :: ascii "a") ++ 10 :: (ascii "x" ++ 0 :: []) ∧
    download asciiRules [.success, .data (ascii "C0644 1 a\nx"), .data [0], .exitStatus 1] =
      .error (.channel "scp command exited with status 1" [])) ∧
    download asciiRules [.success, .data (ascii "C0644 0 " ++ [200, 10]), .data [0]] =
      .error (.channel "SCP server sent non-UTF-8 message" []) ∧
    download asciiRules
        [.success, .data (ascii "C0644 18446744073709551616 a\n"), .data [0]] =
      .error (.channel "invalid file size in C header: " (ascii "18446744073709551616")) := by
  decide +kernel

end Mecmcp.Scp
