import Rapid.Foundations.TextSearch
import Rapid.Net.AddressText
import Rapid.Trace.Base64

/-!
# Ndjson — trace files, `ndjson.rs`

A trace file has a line for each record: the time, the socket address that received the request, and the
request as Base64 of its protobuf bytes. The protobuf code is generated by a library and is a parameter
here. A file is its text; errors of the file system are not modelled.

Reading a file that was appended to gives what the file gave before, then the new records. Of a record
only the flow information of an IPv6 address is lost.
-/

namespace Rapid

open Foundations

structure TraceRecord where
  tsMs : UInt64
  dst : SocketAddr
  request : RapidRequest
  deriving DecidableEq

/-- `ndjson::Error` without `Io`. -/
inductive TraceError (DecodeError : Type)
  | malformed (line : Nat) (detail : String)
  | base64 (line : Nat)
  | protobuf (line : Nat) (e : DecodeError)
  deriving DecidableEq

/-- `prost::Message` of `RapidRequest`. -/
structure RequestCodec (DecodeError : Type) where
  encode : RapidRequest → List UInt8
  decode : List UInt8 → Except DecodeError RapidRequest

/-- What a trace keeps of a record. -/
def TraceRecord.shown (r : TraceRecord) : TraceRecord :=
  { r with dst := r.dst.shown }

namespace Ndjson

/-! ## Writing -/

def tsKey : List Char :=
  "\"ts_ms\":".toList

def dstKey : List Char :=
  "\"dst\":\"".toList

def reqKey : List Char :=
  "\"req_b64\":\"".toList

section Codec

variable {DecodeError : Type} (codec : RequestCodec DecodeError)

/-- The line of a record, without its end. -/
def formatRecord (r : TraceRecord) : List Char :=
  "\x7b\"ts_ms\":".toList ++ decimal r.tsMs.toNat ++ ",\"dst\":\"".toList ++ r.dst.display ++
    "\",\"req_b64\":\"".toList ++ base64Encode (codec.encode r.request) ++ "\"\x7d".toList

def append (file : List Char) (records : List TraceRecord) : List Char :=
  file ++ records.flatMap fun r => formatRecord codec r ++ ['\n']

end Codec

/-! ## Reading -/

/-- `char::is_whitespace`. -/
def isWhitespace (c : Char) : Bool :=
  let n := c.toNat
  (0x09 ≤ n && n ≤ 0x0D) || n = 0x20 || n = 0x85 || n = 0xA0 || n = 0x1680 ||
    (0x2000 ≤ n && n ≤ 0x200A) || n = 0x2028 || n = 0x2029 || n = 0x202F || n = 0x205F || n = 0x3000

def trim (text : List Char) : List Char :=
  (text.dropWhile isWhitespace).rdropWhile isWhitespace

def isAsciiDigit (c : Char) : Bool :=
  '0' ≤ c && c ≤ '9'

/-- `str::parse::<u64>` of a text that has no sign. -/
def parseU64 (text : List Char) : Option UInt64 :=
  match readNumber 10 none true 18446744073709551616 text with
  | some (n, []) => some n.toUInt64
  | _ => none

section Reading

variable {DecodeError : Type}

def extractU64 (line key : List Char) (lineno : Nat) (detail : String) :
    Except (TraceError DecodeError) UInt64 :=
  match afterFirst key line with
  | none => .error (.malformed lineno detail)
  | some after =>
      match parseU64 (after.takeWhile isAsciiDigit) with
      | none => .error (.malformed lineno (detail ++ " (not a u64)"))
      | some n => .ok n

def extractString (line key : List Char) (lineno : Nat) (detail : String) :
    Except (TraceError DecodeError) (List Char) :=
  match afterFirst key line with
  | none => .error (.malformed lineno detail)
  | some after =>
      if '"' ∈ after then .ok (after.takeWhile (· ≠ '"'))
      else .error (.malformed lineno (detail ++ " (unterminated)"))

variable (codec : RequestCodec DecodeError)

def parseLine (line : List Char) (lineno : Nat) : Except (TraceError DecodeError) TraceRecord := do
  let tsMs ← extractU64 line tsKey lineno "ts_ms missing"
  let dstRaw ← extractString line dstKey lineno "dst missing"
  let reqB64 ← extractString line reqKey lineno "req_b64 missing"
  let dst ← (SocketAddr.parse dstRaw).elim
    (.error (.malformed lineno "dst not a SocketAddr: invalid socket address syntax")) .ok
  let bytes ← (base64Decode reqB64).elim (.error (.base64 lineno)) .ok
  let request ← (codec.decode bytes).mapError (.protobuf lineno)
  return { tsMs := tsMs, dst := dst, request := request }

/-- The loop of `read`; lines are counted from 1, the empty ones included. -/
def readLines : Nat → List (List Char) → Except (TraceError DecodeError) (List TraceRecord)
  | _, [] => .ok []
  | lineno, line :: rest =>
      if trim line = [] then readLines (lineno + 1) rest
      else do
        let record ← parseLine codec (trim line) lineno
        return record :: (← readLines (lineno + 1) rest)

def read (file : List Char) : Except (TraceError DecodeError) (List TraceRecord) :=
  readLines codec 1 (lines file)

end Reading

/-! ## The characters of a line -/

/-- A text that can stand in the line, and does not look like the start of a key. -/
def Plain (text : List Char) : Prop :=
  ∀ c ∈ text, c ≠ '"' ∧ c ≠ '\n' ∧ c ≠ 'r'

instance (text : List Char) : Decidable (Plain text) :=
  List.decidableBAll _ text

variable {text more : List Char}

theorem plain_append : Plain (text ++ more) ↔ Plain text ∧ Plain more :=
  List.forall_mem_append

theorem plain_cons {c : Char} : Plain (c :: text) ↔ (c ≠ '"' ∧ c ≠ '\n' ∧ c ≠ 'r') ∧ Plain text :=
  List.forall_mem_cons

theorem plain_toDigits {radix : Nat} (hradix : 1 < radix) (hle : radix ≤ 16) (n : Nat) :
    Plain (Nat.toDigits radix n) := by
  intro c hc
  rcases exists_digit_of_mem_toDigits hradix hc with ⟨d, hd, rfl⟩
  have hall : ∀ d < 16, Nat.digitChar d ≠ '"' ∧ Nat.digitChar d ≠ '\n' ∧ Nat.digitChar d ≠ 'r' := by
    decide
  exact hall d (lt_of_lt_of_le hd hle)

theorem plain_decimal (n : Nat) : Plain (decimal n) :=
  plain_toDigits (by decide) (by decide) n

theorem plain_ipv4 (ip : Ipv4Addr) : Plain ip.display := by
  simp [Ipv4Addr.display, plain_append, plain_cons, plain_decimal]

theorem plain_fmtSubslice (segments : List UInt16) : Plain (Ipv6Addr.fmtSubslice segments) := by
  have hgroup : ∀ segment : UInt16, Plain (lowerHex segment.toNat) :=
    fun segment => plain_toDigits (by decide) (by decide) _
  cases segments with
  | nil => simp [Ipv6Addr.fmtSubslice, Plain]
  | cons segment segments =>
      refine plain_append.2 ⟨hgroup segment, ?_⟩
      intro c hc
      rcases List.mem_flatMap.1 hc with ⟨other, _, hother⟩
      exact plain_cons.2 ⟨by decide, hgroup other⟩ c hother

theorem plain_ipv6 (ip : Ipv6Addr) : Plain ip.display := by
  unfold Ipv6Addr.display
  split
  · exact plain_append.2 ⟨by decide, plain_ipv4 _⟩
  · dsimp only
    split
    · simp [plain_append, plain_cons, plain_fmtSubslice]
    · exact plain_fmtSubslice _

theorem plain_display (addr : SocketAddr) : Plain addr.display := by
  cases addr with
  | v4 ip port => simp [SocketAddr.display, plain_append, plain_cons, plain_ipv4, plain_decimal]
  | v6 ip port flowinfo scopeId =>
      have hscope : Plain (if scopeId = 0 then [] else '%' :: decimal scopeId.toNat) := by
        split
        · simp [Plain]
        · simp [plain_cons, plain_decimal]
      simp [SocketAddr.display, plain_append, plain_cons, plain_ipv6, plain_decimal, hscope]

theorem base64Encode_chars (bytes : List UInt8) :
    ∀ c ∈ base64Encode bytes, c ≠ '"' ∧ c ≠ '\n' := by
  intro c hc
  rcases base64Encode_eq bytes with ⟨n, heq⟩
  rw [heq] at hc
  rcases List.mem_append.1 hc with hdigit | hpad
  · rcases List.mem_map.1 hdigit with ⟨v, hv, rfl⟩
    exact alphabetChar_quotable ((sextets_pack bytes).lt v hv)
  · rw [List.eq_of_mem_replicate hpad]
    decide

/-! ## Reading a written line -/

section Line

variable {DecodeError : Type} (codec : RequestCodec DecodeError) (r : TraceRecord)

theorem formatRecord_eq : formatRecord codec r =
    '\x7b' :: (tsKey ++ (decimal r.tsMs.toNat ++ (',' :: (dstKey ++ (r.dst.display ++
      ('"' :: ',' :: (reqKey ++ (base64Encode (codec.encode r.request) ++ ['"', '\x7d'])))))))) := by
  have hts : "\x7b\"ts_ms\":".toList = '\x7b' :: tsKey := by decide
  have hdst : ",\"dst\":\"".toList = ',' :: dstKey := by decide
  have hreq : "\",\"req_b64\":\"".toList = '"' :: ',' :: reqKey := by decide
  have hend : "\"\x7d".toList = ['"', '\x7d'] := by decide
  unfold formatRecord
  rw [hts, hdst, hreq, hend]
  simp only [List.append_assoc, List.cons_append]

variable {a : Char} {p before name value rest : List Char}

/-- The search for a key passes a text without quotes. -/
theorem pass_plain (hbefore : Plain before) (rest : List Char) :
    afterFirst ('"' :: p) (before ++ rest) = afterFirst ('"' :: p) rest :=
  afterFirst_skip rfl (fun c hc => (hbefore c hc).1) rest

/-- The search passes a quote that another character follows. -/
theorem pass_quote {c : Char} (hc : c ≠ a) (rest : List Char) :
    afterFirst ('"' :: a :: p) ('"' :: c :: rest) = afterFirst ('"' :: a :: p) (c :: rest) :=
  afterFirst_next fun heq => hc (Option.some.inj heq)

/-- The search passes a name in quotes, and the colon. -/
theorem pass_name {c : Char} (hc : c ≠ a) (hname : Plain (c :: name)) (ha : ':' ≠ a)
    (rest : List Char) :
    afterFirst ('"' :: a :: p) ('"' :: (c :: name ++ '"' :: ':' :: rest)) =
      afterFirst ('"' :: a :: p) rest := by
  have hcolon : Plain [':'] := by decide
  calc afterFirst ('"' :: a :: p) ('"' :: (c :: name ++ '"' :: ':' :: rest))
      = afterFirst ('"' :: a :: p) (c :: name ++ '"' :: ':' :: rest) := pass_quote hc _
    _ = afterFirst ('"' :: a :: p) ('"' :: ':' :: rest) := pass_plain hname _
    _ = afterFirst ('"' :: a :: p) (':' :: rest) := pass_quote ha rest
    _ = afterFirst ('"' :: a :: p) rest := pass_plain hcolon rest

/-- The search for a later key passes the first field. -/
theorem pass_ts (ht : 't' ≠ a) (ha : ':' ≠ a) (hvalue : Plain value) (rest : List Char) :
    afterFirst ('"' :: a :: p) ('\x7b' :: (tsKey ++ (value ++ ',' :: rest))) =
      afterFirst ('"' :: a :: p) rest := by
  have hkey : tsKey = '"' :: ('t' :: "s_ms".toList ++ ['"', ':']) := by decide
  have hbrace : Plain ['\x7b'] := by decide
  have hname : Plain ('t' :: "s_ms".toList) := by decide
  have hcomma : Plain [','] := by decide
  calc afterFirst ('"' :: a :: p) ('\x7b' :: (tsKey ++ (value ++ ',' :: rest)))
      = afterFirst ('"' :: a :: p) (tsKey ++ (value ++ ',' :: rest)) := pass_plain hbrace _
    _ = afterFirst ('"' :: a :: p)
          ('"' :: ('t' :: "s_ms".toList ++ '"' :: ':' :: (value ++ ',' :: rest))) := by
        rw [hkey, List.cons_append, List.append_assoc]
        rfl
    _ = afterFirst ('"' :: a :: p) (value ++ ',' :: rest) := pass_name ht hname ha _
    _ = afterFirst ('"' :: a :: p) (',' :: rest) := pass_plain hvalue _
    _ = afterFirst ('"' :: a :: p) rest := pass_plain hcomma rest

/-- The search for the last key passes the second field. -/
theorem pass_dst (hd : 'd' ≠ a) (ha : ':' ≠ a) (hcomma : ',' ≠ a) (hvalue : Plain value)
    (hhead : value.head? ≠ some a) (hne : value ≠ []) (rest : List Char) :
    afterFirst ('"' :: a :: p) (dstKey ++ (value ++ '"' :: ',' :: rest)) =
      afterFirst ('"' :: a :: p) rest := by
  have hkey : dstKey = '"' :: ('d' :: "st".toList ++ ['"', ':', '"']) := by decide
  have hname : Plain ('d' :: "st".toList) := by decide
  have hplain : Plain [','] := by decide
  have hopen : (value ++ '"' :: ',' :: rest).head? ≠ some a := by
    cases value with
    | nil => exact absurd rfl hne
    | cons c value => exact hhead
  calc afterFirst ('"' :: a :: p) (dstKey ++ (value ++ '"' :: ',' :: rest))
      = afterFirst ('"' :: a :: p)
          ('"' :: ('d' :: "st".toList ++ '"' :: ':' :: ('"' :: (value ++ '"' :: ',' :: rest)))) := by
        rw [hkey, List.cons_append, List.append_assoc]
        rfl
    _ = afterFirst ('"' :: a :: p) ('"' :: (value ++ '"' :: ',' :: rest)) := pass_name hd hname ha _
    _ = afterFirst ('"' :: a :: p) (value ++ '"' :: ',' :: rest) := afterFirst_next hopen
    _ = afterFirst ('"' :: a :: p) ('"' :: ',' :: rest) := pass_plain hvalue _
    _ = afterFirst ('"' :: a :: p) (',' :: rest) := pass_quote hcomma rest
    _ = afterFirst ('"' :: a :: p) rest := pass_plain hplain rest

/-! ## The three fields of a written line -/

theorem isAsciiDigit_of_mem_decimal {n : Nat} {c : Char} (hc : c ∈ decimal n) :
    isAsciiDigit c = true := by
  rcases exists_digit_of_mem_toDigits (by decide) hc with ⟨d, hd, rfl⟩
  have hall : ∀ d < 10, isAsciiDigit d.digitChar = true := by decide
  exact hall d hd

theorem parseU64_decimal (n : UInt64) : parseU64 (decimal n.toNat) = some n := by
  have hlt : n.toNat < 18446744073709551616 := n.toNat_lt
  have hend : NoDigitHead 10 [] := by
    intro c hc
    cases hc
  have hread : readNumber 10 none true 18446744073709551616 (decimal n.toNat ++ []) =
      some (n.toNat, []) :=
    readNumber_toDigits (by decide) (by decide) (by simp) hlt hend
  have hback : n.toNat.toUInt64 = n := UInt64.ofNat_toNat
  rw [List.append_nil] at hread
  unfold parseU64
  rw [hread]
  exact congrArg some hback

theorem extractU64_format (lineno : Nat) (detail : String) :
    extractU64 (formatRecord codec r) tsKey lineno detail =
      (.ok r.tsMs : Except (TraceError DecodeError) UInt64) := by
  have hkey : tsKey = '"' :: "ts_ms\":".toList := by decide
  have hbrace : Plain ['\x7b'] := by decide
  -- The number goes up to the comma.
  have hdigits : ∀ rest, (decimal r.tsMs.toNat ++ ',' :: rest).takeWhile isAsciiDigit =
      decimal r.tsMs.toNat := by
    intro rest
    rw [List.takeWhile_append_of_pos fun c hc => isAsciiDigit_of_mem_decimal hc]
    have hcomma : isAsciiDigit ',' = false := by decide
    simp [hcomma]
  have hafter : ∀ rest, afterFirst tsKey ('\x7b' :: (tsKey ++ rest)) = some rest := by
    intro rest
    refine Eq.trans ?_ (afterFirst_of_append tsKey rest)
    rw [hkey]
    exact pass_plain hbrace _
  unfold extractU64
  rw [formatRecord_eq, hafter]
  dsimp only
  rw [hdigits, parseU64_decimal]

/-- What stands between a key and the next quote is extracted. -/
theorem extractString_eq {line key : List Char} (hvalue : ∀ c ∈ value, c ≠ '"')
    (hafter : afterFirst key line = some (value ++ '"' :: rest)) (lineno : Nat) (detail : String) :
    extractString line key lineno detail =
      (.ok value : Except (TraceError DecodeError) (List Char)) := by
  have hquote : '"' ∈ value ++ '"' :: rest := by simp
  have htake : (value ++ '"' :: rest).takeWhile (· ≠ '"') = value := by
    rw [List.takeWhile_append_of_pos fun c hc => decide_eq_true (hvalue c hc)]
    simp
  unfold extractString
  rw [hafter]
  dsimp only
  rw [if_pos hquote, htake]

theorem extractString_dst (lineno : Nat) (detail : String) :
    extractString (formatRecord codec r) dstKey lineno detail =
      (.ok r.dst.display : Except (TraceError DecodeError) (List Char)) := by
  have hkey : dstKey = '"' :: 'd' :: "st\":\"".toList := by decide
  have hafter : afterFirst dstKey (formatRecord codec r) = some (r.dst.display ++
      '"' :: ',' :: (reqKey ++ (base64Encode (codec.encode r.request) ++ ['"', '\x7d']))) := by
    rw [formatRecord_eq]
    refine Eq.trans ?_ (afterFirst_of_append dstKey _)
    rw [hkey]
    exact pass_ts (by decide) (by decide) (plain_decimal _) _
  exact extractString_eq (fun c hc => (plain_display r.dst c hc).1) hafter lineno detail

theorem extractString_req (lineno : Nat) (detail : String) :
    extractString (formatRecord codec r) reqKey lineno detail =
      (.ok (base64Encode (codec.encode r.request)) :
        Except (TraceError DecodeError) (List Char)) := by
  have hkey : reqKey = '"' :: 'r' :: "eq_b64\":\"".toList := by decide
  have hne : r.dst.display ≠ [] := by
    cases r.dst with
    | v4 ip port => simp [SocketAddr.display]
    | v6 ip port flowinfo scopeId => simp [SocketAddr.display]
  have hhead : r.dst.display.head? ≠ some 'r' := by
    intro heq
    exact (plain_display r.dst 'r' (List.mem_of_head? heq)).2.2 rfl
  have hafter : afterFirst reqKey (formatRecord codec r) =
      some (base64Encode (codec.encode r.request) ++ ['"', '\x7d']) := by
    rw [formatRecord_eq]
    refine Eq.trans ?_ (afterFirst_of_append reqKey _)
    rw [hkey]
    calc afterFirst _ _
        = afterFirst _ (dstKey ++ (r.dst.display ++ '"' :: ',' :: _)) :=
          pass_ts (by decide) (by decide) (plain_decimal _) _
      _ = _ := pass_dst (by decide) (by decide) (by decide) (plain_display r.dst) hhead hne _
  exact extractString_eq (fun c hc => (base64Encode_chars _ c hc).1) hafter lineno detail

/-- A written line is read as the record it shows. -/
theorem parseLine_format (h : codec.decode (codec.encode r.request) = .ok r.request) (lineno : Nat) :
    parseLine codec (formatRecord codec r) lineno = .ok r.shown := by
  unfold parseLine
  simp only [extractU64_format, extractString_dst, extractString_req, parse_display,
    base64Decode_encode, h, bind, Except.bind, Option.elim, Except.mapError]
  rfl

/-- A text between characters that are no white space is not trimmed. -/
theorem trim_eq {c d : Char} (hc : isWhitespace c = false) (hd : isWhitespace d = false)
    (text : List Char) : trim (c :: (text ++ [d])) = c :: (text ++ [d]) := by
  have hlast : (c :: (text ++ [d])).rdropWhile isWhitespace = c :: (text ++ [d]) := by
    rw [← List.cons_append, List.rdropWhile_concat_neg _ _ _ (by simp [hd])]
  unfold trim
  rw [List.dropWhile_cons_of_neg (by simp [hc]), hlast]

theorem formatRecord_ends : ∃ text, formatRecord codec r = '\x7b' :: (text ++ ['\x7d']) ∧
    '\n' ∉ text := by
  refine ⟨tsKey ++ (decimal r.tsMs.toNat ++ (',' :: (dstKey ++ (r.dst.display ++
      ('"' :: ',' :: (reqKey ++ (base64Encode (codec.encode r.request) ++ ['"']))))))), ?_, ?_⟩
  · rw [formatRecord_eq]
    simp only [List.append_assoc, List.cons_append, List.nil_append]
  · have hts : '\n' ∉ tsKey := by decide
    have hdst : '\n' ∉ dstKey := by decide
    have hreq : '\n' ∉ reqKey := by decide
    have hnumber : '\n' ∉ decimal r.tsMs.toNat := fun hmem => (plain_decimal _ _ hmem).2.1 rfl
    have haddress : '\n' ∉ r.dst.display := fun hmem => (plain_display _ _ hmem).2.1 rfl
    have hpayload : '\n' ∉ base64Encode (codec.encode r.request) :=
      fun hmem => (base64Encode_chars _ _ hmem).2 rfl
    simp [hts, hdst, hreq, hnumber, haddress, hpayload]

theorem trim_format : trim (formatRecord codec r) = formatRecord codec r := by
  rcases formatRecord_ends codec r with ⟨text, heq, _⟩
  rw [heq]
  exact trim_eq (by decide) (by decide) text

/-- Every record is a line of its own. -/
theorem lines_records (records : List TraceRecord) :
    lines (records.flatMap fun r => formatRecord codec r ++ ['\n']) =
      records.map (formatRecord codec) := by
  induction records with
  | nil => rfl
  | cons r records ih =>
      rcases formatRecord_ends codec r with ⟨text, heq, hline⟩
      have hnewline : '\n' ∉ formatRecord codec r := by
        rw [heq]
        simp [hline]
      have hlast : (formatRecord codec r).getLast? ≠ some '\r' := by
        rw [heq, ← List.cons_append, List.getLast?_concat]
        decide
      rw [List.flatMap_cons, List.append_assoc, List.singleton_append, lines_line hnewline hlast, ih,
        List.map_cons]

/-- What is appended is finished. -/
theorem finished_records (records : List TraceRecord) :
    Finished (records.flatMap fun r => formatRecord codec r ++ ['\n']) := by
  induction records with
  | nil => exact finished_nil
  | cons r records ih => exact (finished_append_newline _).append ih

end Line

/-! ## Reading a file that was appended to -/

section File

variable {DecodeError : Type} {codec : RequestCodec DecodeError} {records : List TraceRecord}

theorem readLines_append (before after : List (List Char)) (lineno : Nat) :
    readLines codec lineno (before ++ after) = (do
      let first ← readLines codec lineno before
      let second ← readLines codec (lineno + before.length) after
      return first ++ second) := by
  induction before generalizing lineno with
  | nil =>
      show _ = readLines codec lineno after >>= fun second => pure second
      rw [bind_pure]
      rfl
  | cons line before ih =>
      have hrest := ih (lineno + 1)
      rw [Nat.add_right_comm, Nat.add_assoc] at hrest
      rw [List.cons_append, readLines, readLines, List.length_cons]
      split
      · exact hrest
      · rw [hrest]
        simp only [bind_assoc, pure_bind, List.cons_append]

theorem readLines_records (hcodec : ∀ r ∈ records, codec.decode (codec.encode r.request) = .ok r.request)
    (lineno : Nat) :
    readLines codec lineno (records.map (formatRecord codec)) =
      .ok (records.map TraceRecord.shown) := by
  induction records generalizing lineno with
  | nil => rfl
  | cons r records ih =>
      have hr := parseLine_format codec r (hcodec r List.mem_cons_self) lineno
      have hrest := ih (fun x hx => hcodec x (List.mem_cons_of_mem _ hx)) (lineno + 1)
      rcases formatRecord_ends codec r with ⟨text, heq, _⟩
      have hne : formatRecord codec r ≠ [] := by
        rw [heq]
        exact List.cons_ne_nil _ _
      rw [List.map_cons, readLines, trim_format, if_neg hne, hr, hrest]
      rfl

variable {file : List Char} {batches : List (List TraceRecord)}

theorem read_append (hfile : Finished file)
    (hcodec : ∀ r ∈ records, codec.decode (codec.encode r.request) = .ok r.request) :
    read codec (append codec file records) =
      (read codec file).map fun before => before ++ records.map TraceRecord.shown := by
  unfold read append
  rw [lines_append hfile, lines_records, readLines_append, readLines_records hcodec]
  cases readLines codec 1 (lines file) with
  | error e => rfl
  | ok before => rfl

/-- A trace that was written in any number of batches: what the file held before is read as before, up
to the line of an error, and all that was appended follows in order. -/
theorem trace_readBack (hfile : Finished file)
    (hcodec : ∀ records ∈ batches, ∀ r ∈ records,
      codec.decode (codec.encode r.request) = .ok r.request) :
    read codec (batches.foldl (append codec) file) =
      (read codec file).map fun before => before ++ batches.flatten.map TraceRecord.shown := by
  induction batches generalizing file with
  | nil =>
      cases hread : read codec file with
      | error e => simp [hread, Except.map]
      | ok before => simp [hread, Except.map]
  | cons records batches ih =>
      have hfinished : Finished (append codec file records) :=
        hfile.append (finished_records codec records)
      have hrest := ih hfinished fun more hmore => hcodec more (List.mem_cons_of_mem _ hmore)
      rw [List.foldl_cons, hrest, read_append hfile (hcodec records List.mem_cons_self)]
      cases read codec file with
      | error e => rfl
      | ok before => simp [Except.map]

/-! ## Errors -/

/-- The number of the line that an error names. -/
def lineOf : TraceError DecodeError → Nat
  | .malformed line _ => line
  | .base64 line => line
  | .protobuf line _ => line

theorem extractU64_lineOf {line key : List Char} {lineno : Nat} {detail : String}
    {e : TraceError DecodeError} (h : extractU64 line key lineno detail = .error e) :
    lineOf e = lineno := by
  unfold extractU64 at h
  split at h
  · cases h
    rfl
  · split at h
    · cases h
      rfl
    · cases h

theorem extractString_lineOf {line key : List Char} {lineno : Nat} {detail : String}
    {e : TraceError DecodeError} (h : extractString line key lineno detail = .error e) :
    lineOf e = lineno := by
  unfold extractString at h
  split at h
  · cases h
    rfl
  · split at h
    · cases h
    · cases h
      rfl

/-- An error comes from one of two steps. -/
theorem bind_eq_error {α β ε : Type} {x : Except ε α} {f : α → Except ε β} {e : ε}
    (h : x >>= f = .error e) : x = .error e ∨ ∃ a, x = .ok a ∧ f a = .error e := by
  cases x with
  | error e' =>
      cases h
      exact .inl rfl
  | ok a => exact .inr ⟨a, rfl, h⟩

/-- Every error of a line names the line. -/
theorem parseLine_lineOf {line : List Char} {lineno : Nat} {e : TraceError DecodeError}
    (h : parseLine codec line lineno = .error e) : lineOf e = lineno := by
  unfold parseLine at h
  rcases bind_eq_error h with hts | ⟨tsMs, _, h⟩
  · exact extractU64_lineOf hts
  rcases bind_eq_error h with hdst | ⟨dstRaw, _, h⟩
  · exact extractString_lineOf hdst
  rcases bind_eq_error h with hreq | ⟨reqB64, _, h⟩
  · exact extractString_lineOf hreq
  rcases bind_eq_error h with haddr | ⟨dst, _, h⟩
  · cases hparse : SocketAddr.parse dstRaw with
    | none =>
        rw [hparse] at haddr
        cases haddr
        rfl
    | some addr =>
        rw [hparse] at haddr
        cases haddr
  rcases bind_eq_error h with hbytes | ⟨bytes, _, h⟩
  · cases hdecode : base64Decode reqB64 with
    | none =>
        rw [hdecode] at hbytes
        cases hbytes
        rfl
    | some bytes =>
        rw [hdecode] at hbytes
        cases hbytes
  rcases bind_eq_error h with hrequest | ⟨request, _, h⟩
  · cases hdecode : codec.decode bytes with
    | error e' =>
        rw [hdecode] at hrequest
        cases hrequest
        rfl
    | ok request =>
        rw [hdecode] at hrequest
        cases hrequest
  · cases h

/-- The lines up to the first that cannot be read. -/
theorem readLines_error {ls : List (List Char)} {lineno : Nat} {e : TraceError DecodeError}
    (h : readLines codec lineno ls = .error e) :
    ∃ before line after rs, ls = before ++ line :: after ∧ readLines codec lineno before = .ok rs ∧
      trim line ≠ [] ∧ parseLine codec (trim line) (lineno + before.length) = .error e := by
  induction ls generalizing lineno with
  | nil => cases h
  | cons line ls ih =>
      rw [readLines] at h
      split at h
      · rename_i hblank
        rcases ih h with ⟨before, bad, after, rs, rfl, hread, hbad, hparse⟩
        refine ⟨line :: before, bad, after, rs, rfl, ?_, hbad, ?_⟩
        · rw [readLines, if_pos hblank, hread]
        · rw [List.length_cons, Nat.add_comm before.length, ← Nat.add_assoc, hparse]
      · rename_i hline
        rcases bind_eq_error h with hparse | ⟨r, hr, hrest⟩
        · exact ⟨[], line, ls, [], rfl, rfl, hline, hparse⟩
        · rcases bind_eq_error hrest with hread | ⟨more, _, hok⟩
          · rcases ih hread with ⟨before, bad, after, rs, rfl, hread, hbad, hparse⟩
            refine ⟨line :: before, bad, after, r :: rs, rfl, ?_, hbad, ?_⟩
            · rw [readLines, if_neg hline, hr, hread]
              rfl
            · rw [List.length_cons, Nat.add_comm before.length, ← Nat.add_assoc, hparse]
          · cases hok

/-- Reading fails exactly with the error of the first line that is not blank and cannot be parsed, and
the error names that line. -/
theorem trace_error_iff (codec : RequestCodec DecodeError) (file : List Char)
    (e : TraceError DecodeError) :
    read codec file = .error e ↔
      ∃ before line after rs, lines file = before ++ line :: after ∧
        readLines codec 1 before = .ok rs ∧ trim line ≠ [] ∧ lineOf e = before.length + 1 ∧
        parseLine codec (trim line) (before.length + 1) = .error e := by
  constructor
  · intro h
    rcases readLines_error h with ⟨before, line, after, rs, hlines, hread, hline, hparse⟩
    rw [Nat.add_comm] at hparse
    exact ⟨before, line, after, rs, hlines, hread, hline, parseLine_lineOf hparse, hparse⟩
  · rintro ⟨before, line, after, rs, hlines, hread, hline, _, hparse⟩
    unfold read
    rw [hlines, readLines_append, hread, Nat.add_comm 1]
    show (readLines codec (before.length + 1) (line :: after) >>= fun second => pure (rs ++ second)) = _
    rw [readLines, if_neg hline, hparse]
    rfl

end File

section Sample

def probeRequest : RapidRequest :=
  ⟨some (.probeMessage ⟨none, []⟩)⟩

def leaveRequest : RapidRequest :=
  ⟨some (.leaveMessage ⟨none⟩)⟩

/-- Requests without any field, as protobuf writes them: the field's tag and the length 0. -/
def sampleCodec : RequestCodec Unit where
  encode := fun request =>
    if request = probeRequest then [0x22, 0x00]
    else if request = leaveRequest then [0x52, 0x00]
    else []
  decode := fun bytes =>
    if bytes = [0x22, 0x00] then .ok probeRequest
    else if bytes = [0x52, 0x00] then .ok leaveRequest
    else .error ()

def linkLocalRecord : TraceRecord where
  tsMs := 1779845333609
  dst := .v6 ⟨[0xfe80, 0, 0, 0, 0, 0, 0, 1], rfl⟩ 22000 7 3
  request := probeRequest

def loopbackRecord : TraceRecord where
  tsMs := 1779845333610
  dst := .v4 ⟨127, 0, 0, 1⟩ 22000
  request := leaveRequest

/-- Two batches after a blank line; the flow information of the first address is lost. -/
theorem sampleTrace_readBack :
    read sampleCodec ([[linkLocalRecord], [loopbackRecord]].foldl (append sampleCodec) " \n".toList) =
      .ok [{ linkLocalRecord with dst := .v6 ⟨[0xfe80, 0, 0, 0, 0, 0, 0, 1], rfl⟩ 22000 0 3 },
        loopbackRecord] := by
  have hfile : Finished " \n".toList := finished_append_newline [' ']
  have hcodec : ∀ records ∈ [[linkLocalRecord], [loopbackRecord]], ∀ r ∈ records,
      sampleCodec.decode (sampleCodec.encode r.request) = .ok r.request := by
    simp [linkLocalRecord, loopbackRecord, sampleCodec, probeRequest, leaveRequest]
  rw [trace_readBack hfile hcodec]
  have hbefore : read sampleCodec " \n".toList = .ok [] := by decide +kernel
  rw [hbefore]
  rfl

end Sample

end Ndjson

end Rapid
