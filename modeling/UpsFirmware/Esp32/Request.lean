import UpsFirmware.Lib.CString

/-!
# `UpsFirmware.Esp32.Request`: how the web server reads a request

`client_conn_handler` (`esp32-app/src/http.c`) receives at most 256 bytes into `buf` and
parses them with `sscanf` and `strstr`. These are string functions, and nothing puts a
terminator behind the bytes received. The word for `method` has no maximal width, and a
failed `recv` leads to the same parsing.

`Access` is an access of the parsing to `buf`, `method` or `path`. A string function that
is given `buf` reads the string there, terminator included. The C library is newlib
(`prj.conf`), whose `sscanf` takes the length of its string first.

`staysInside_iff` says which requests are parsed inside the buffers.
-/

set_option autoImplicit false

namespace UpsFirmware.Esp32

open Lib

/-- `sizeof(buf)`, `sizeof(method)` and `sizeof(path)`. -/
def BUF_SIZE : Nat := 256
def METHOD_SIZE : Nat := 16
def PATH_SIZE : Nat := 256

/-- The outcome of `recv`: an error, the end of the connection, or some bytes. -/
inductive Recv where
  | error (errno : Nat)
  | closed
  | data (bytes : List UInt8) (nonempty : bytes ≠ []) (fits : bytes.length ≤ BUF_SIZE)

/-- An access to byte `i` of an array. -/
inductive Access where
  | readBuf (i : Nat)
  | writeMethod (i : Nat) (c : UInt8)
  | writePath (i : Nat) (c : UInt8)
deriving DecidableEq

/-- The bytes of a text. -/
def ascii (s : String) : List UInt8 := s.toList.map Char.toUInt8

/-- What the handler does behind the parsing. -/
inductive Branch where
  | status (running : Bool)
  | get (path : List UInt8)
  | post (path : List UInt8) (body : Option (List UInt8))
  | notAllowed

/-- The three local arrays before `recv`: the memory from `buf` on, with what lies behind
it, and the contents of `method` and `path`. -/
structure Locals where
  stack : List UInt8
  method : List UInt8
  path : List UInt8

/-- The memory from `buf` on, after `recv`. -/
def Recv.buffer (o : Recv) (stack : List UInt8) : List UInt8 :=
  match o with
  | .data bytes _ _ => bytes ++ stack.drop bytes.length
  | _ => stack

/-- A string function reads `buf`. -/
def readBuf (buf : List UInt8) : List Access := (List.range (stringReads buf)).map .readBuf

/-- A word and its terminator are stored. -/
def storeWord (store : Nat → UInt8 → Access) (word : List UInt8) : List Access :=
  (word ++ [0]).zipIdx.map fun c : UInt8 × Nat => store c.2 c.1

/-- `sscanf(buf, "%s %s", method, path)`: the accesses, and the strings in the two
arrays afterwards. -/
def scanRequest (buf : List UInt8) (loc : Locals) : List Access × List UInt8 × List UInt8 :=
  match scanWord (cString buf) with
  | none => (readBuf buf, cString loc.method, cString loc.path)
  | some (method, rest) =>
      match scanWord rest with
      | none => (readBuf buf ++ storeWord .writeMethod method, method, cString loc.path)
      | some (path, _) =>
          (readBuf buf ++ storeWord .writeMethod method ++ storeWord .writePath path,
            method, path)

/-- `client_conn_handler` between `recv` and the answer. -/
def clientConnHandler (o : Recv) (loc : Locals) : List Access × Branch :=
  let buf := o.buffer loc.stack
  let (accesses, method, path) := scanRequest buf loc
  -- An error or a closed connection is printed, and parsed all the same.
  let body := strstr (ascii "\r\n\r\n") (cString buf)
  let accesses := accesses ++ readBuf buf ++ readBuf buf
  if (strstr (ascii "\r\n\r\nOK") (cString buf)).isSome then (accesses, .status true)
  else
    let accesses := accesses ++ readBuf buf
    if (strstr (ascii "\r\n\r\nFAIL") (cString buf)).isSome then (accesses, .status false)
    else if method = ascii "GET" then (accesses, .get path)
    else if method = ascii "POST" then (accesses, .post path body)
    else (accesses, .notAllowed)

/-! ### The law -/

/-- The parsing reads received bytes only, and stores at most 15 characters and the
terminator in `method` and at most 255 and the terminator in `path`. If nothing was
received, it reads nothing. -/
def StaysInside (o : Recv) (accesses : List Access) : Prop :=
  match o with
  | .data bytes _ _ =>
      (∀ i, .readBuf i ∈ accesses → i < bytes.length) ∧
      (∀ i c, .writeMethod i c ∈ accesses → i < METHOD_SIZE) ∧
      (∀ i c, .writePath i c ∈ accesses → i < PATH_SIZE)
  | _ => ∀ i, .readBuf i ∉ accesses

/-- The first word of a string, which is empty if the string has no word. -/
def firstWord (s : List UInt8) : List UInt8 :=
  (s.dropWhile isSpace).takeWhile fun c => !isSpace c

/-- A string function reads the string and its terminator. -/
theorem readBuf_mem {buf : List UInt8} {i : Nat} :
    .readBuf i ∈ readBuf buf ↔ i < stringReads buf := by
  simp [readBuf]

/-- Storing a word accesses the elements up to its length. -/
theorem mem_storeWord {store : Nat → UInt8 → Access} {word : List UInt8} {a : Access}
    (h : a ∈ storeWord store word) : ∃ i c, i ≤ word.length ∧ a = store i c := by
  obtain ⟨⟨c, i⟩, hmem, rfl⟩ := List.mem_map.mp h
  have hlt := (List.mem_zipIdx hmem).2.1
  rw [List.length_append, List.length_singleton] at hlt
  exact ⟨i, c, by omega, rfl⟩

/-- The terminator is stored behind the word. -/
theorem terminator_mem_storeWord (store : Nat → UInt8 → Access) (word : List UInt8) :
    store word.length 0 ∈ storeWord store word := by
  refine List.mem_map.mpr ⟨(0, word.length), ?_, rfl⟩
  rw [List.mk_mem_zipIdx_iff_getElem?]
  simp

/-! ### The accesses of the parsing -/

/-- A scanned word is the first word. -/
theorem scanWord_eq_some {s word rest : List UInt8} (h : scanWord s = some (word, rest)) :
    word = firstWord s := by
  rw [scanWord] at h
  split at h
  · cases h
  · cases h
    rfl

/-- A string without a word has the empty first word. -/
theorem scanWord_eq_none {s : List UInt8} (h : scanWord s = none) : firstWord s = [] := by
  rw [scanWord] at h
  split at h
  · next hrest => rw [firstWord, hrest, List.takeWhile_nil]
  · cases h

/-- The two conversions store the first word in `method` and a word of the string in
`path`, if there are such words. -/
theorem mem_scanRequest {buf : List UInt8} {loc : Locals} {a : Access}
    (h : a ∈ (scanRequest buf loc).1) :
    a ∈ readBuf buf ∨ a ∈ storeWord .writeMethod (firstWord (cString buf)) ∨
      ∃ path : List UInt8, path.length ≤ (cString buf).length ∧ a ∈ storeWord .writePath path := by
  rw [scanRequest] at h
  split at h
  · exact .inl h
  · next method rest hmethod =>
    rw [scanWord_eq_some hmethod] at h
    split at h
    · rcases List.mem_append.mp h with h | h
      · exact .inl h
      · exact .inr (.inl h)
    · next path rest' hpath =>
      have hrest := length_scanWord hmethod
      have hword := length_scanWord hpath
      rcases List.mem_append.mp h with h | h
      · rcases List.mem_append.mp h with h | h
        · exact .inl h
        · exact .inr (.inl h)
      · exact .inr (.inr ⟨path, by omega, h⟩)

/-- The first conversion reads `buf` in any case. -/
theorem readBuf_subset_scanRequest (buf : List UInt8) (loc : Locals) :
    readBuf buf ⊆ (scanRequest buf loc).1 := by
  intro a ha
  rw [scanRequest]
  split
  · exact ha
  · split
    · exact List.mem_append_left _ ha
    · exact List.mem_append_left _ (List.mem_append_left _ ha)

/-- The first word and its terminator are stored if there is such a word. -/
theorem storeWord_subset_scanRequest {buf : List UInt8} (loc : Locals)
    (h : firstWord (cString buf) ≠ []) :
    storeWord .writeMethod (firstWord (cString buf)) ⊆ (scanRequest buf loc).1 := by
  intro a ha
  rw [scanRequest]
  split
  · next hnone => exact absurd (scanWord_eq_none hnone) h
  · next method rest hmethod =>
    rw [← scanWord_eq_some hmethod] at ha
    split
    · exact List.mem_append_right _ ha
    · exact List.mem_append_left _ (List.mem_append_right _ ha)

/-- The scans with `strstr` read `buf` as the first conversion did. -/
theorem mem_clientConnHandler (o : Recv) (loc : Locals) (a : Access) :
    a ∈ (clientConnHandler o loc).1 ↔ a ∈ (scanRequest (o.buffer loc.stack) loc).1 := by
  have hread := @readBuf_subset_scanRequest (o.buffer loc.stack) loc a
  have habsorb : ∀ l : List Access, (a ∈ l ↔ a ∈ (scanRequest (o.buffer loc.stack) loc).1) →
      (a ∈ l ++ readBuf (o.buffer loc.stack)
        ↔ a ∈ (scanRequest (o.buffer loc.stack) loc).1) := by
    intro l hl
    rw [List.mem_append, hl]
    exact ⟨fun h => h.elim id hread, .inl⟩
  have htwo := habsorb _ (habsorb _ Iff.rfl)
  simp only [clientConnHandler]
  split
  · exact htwo
  · -- The scan for the status of a failure is the third one.
    split
    · exact habsorb _ htwo
    · split
      · exact habsorb _ htwo
      · split
        · exact habsorb _ htwo
        · exact habsorb _ htwo

/-- The branch of a request, without the accesses. -/
theorem clientConnHandler_snd (o : Recv) (loc : Locals) :
    (clientConnHandler o loc).2
      = if (strstr (ascii "\r\n\r\nOK") (cString (o.buffer loc.stack))).isSome then .status true
        else if (strstr (ascii "\r\n\r\nFAIL") (cString (o.buffer loc.stack))).isSome then
          .status false
        else if (scanRequest (o.buffer loc.stack) loc).2.1 = ascii "GET" then
          .get (scanRequest (o.buffer loc.stack) loc).2.2
        else if (scanRequest (o.buffer loc.stack) loc).2.1 = ascii "POST" then
          .post (scanRequest (o.buffer loc.stack) loc).2.2
            (strstr (ascii "\r\n\r\n") (cString (o.buffer loc.stack)))
        else .notAllowed := by
  simp only [clientConnHandler]
  split
  · rfl
  · split
    · rfl
    · split
      · rfl
      · split
        · rfl
        · rfl

/-- Whatever `recv` did, the handler reads the first byte of `buf`. -/
theorem reads_first (o : Recv) (loc : Locals) : .readBuf 0 ∈ (clientConnHandler o loc).1 := by
  rw [mem_clientConnHandler]
  exact readBuf_subset_scanRequest _ _ (readBuf_mem.mpr (Nat.succ_pos _))

/-- The handler reads the string in `buf`, terminator included. -/
theorem readBuf_mem_clientConnHandler (o : Recv) (loc : Locals) (i : Nat) :
    .readBuf i ∈ (clientConnHandler o loc).1 ↔ i < stringReads (o.buffer loc.stack) := by
  rw [mem_clientConnHandler, ← readBuf_mem]
  refine ⟨fun h => ?_, fun h => readBuf_subset_scanRequest _ _ h⟩
  rcases mem_scanRequest h with h | h | ⟨path, _, h⟩
  · exact h
  · obtain ⟨_, _, _, hstore⟩ := mem_storeWord h
    cases hstore
  · obtain ⟨_, _, _, hstore⟩ := mem_storeWord h
    cases hstore

/-- The handler stores the first word in `method`, and its terminator. -/
theorem le_of_writeMethod_mem {o : Recv} {loc : Locals} {i : Nat} {c : UInt8}
    (h : .writeMethod i c ∈ (clientConnHandler o loc).1) :
    i ≤ (firstWord (cString (o.buffer loc.stack))).length := by
  rw [mem_clientConnHandler] at h
  rcases mem_scanRequest h with h | h | ⟨path, _, h⟩
  · simp [readBuf] at h
  · obtain ⟨j, c', hj, hstore⟩ := mem_storeWord h
    cases hstore
    exact hj
  · obtain ⟨_, _, _, hstore⟩ := mem_storeWord h
    cases hstore

/-- What the handler stores in `path` is not longer than the string in `buf`. -/
theorem le_of_writePath_mem {o : Recv} {loc : Locals} {i : Nat} {c : UInt8}
    (h : .writePath i c ∈ (clientConnHandler o loc).1) :
    i ≤ (cString (o.buffer loc.stack)).length := by
  rw [mem_clientConnHandler] at h
  rcases mem_scanRequest h with h | h | ⟨path, hpath, h⟩
  · simp [readBuf] at h
  · obtain ⟨_, _, _, hstore⟩ := mem_storeWord h
    cases hstore
  · obtain ⟨j, c', hj, hstore⟩ := mem_storeWord h
    cases hstore
    exact Nat.le_trans hj hpath

/-- With bytes received, the parsing stays inside exactly when one of them is zero and the
first word in front of it fits `method`. -/
theorem staysInside_data_iff (bytes : List UInt8) (nonempty : bytes ≠ [])
    (fits : bytes.length ≤ BUF_SIZE) (loc : Locals) :
    StaysInside (.data bytes nonempty fits)
        (clientConnHandler (.data bytes nonempty fits) loc).1 ↔
      0 ∈ bytes ∧ (firstWord (cString bytes)).length ≤ 15 := by
  have hbuf : (Recv.data bytes nonempty fits).buffer loc.stack
      = bytes ++ loc.stack.drop bytes.length := rfl
  constructor
  · intro ⟨hread, hmethod, _⟩
    -- The last byte that is read is the terminator.
    have hzero : 0 ∈ bytes := by
      rw [← stringReads_le_iff bytes (loc.stack.drop bytes.length), ← hbuf]
      exact hread _ ((readBuf_mem_clientConnHandler _ _ _).mpr (Nat.lt_succ_self _))
    refine ⟨hzero, ?_⟩
    rw [← cString_append hzero (loc.stack.drop bytes.length), ← hbuf]
    by_cases hword : firstWord (cString ((Recv.data bytes nonempty fits).buffer loc.stack)) = []
    · rw [hword]
      exact Nat.zero_le 15
    · have hstore := hmethod _ 0 ((mem_clientConnHandler _ _ _).mpr
        (storeWord_subset_scanRequest loc hword (terminator_mem_storeWord _ _)))
      exact Nat.le_of_lt_succ hstore
  · intro ⟨hzero, hword⟩
    have hlen := length_cString_lt hzero
    rw [← cString_append hzero (loc.stack.drop bytes.length), ← hbuf] at hword hlen
    refine ⟨fun i hi => ?_, fun i c hi => ?_, fun i c hi => ?_⟩
    · have hlast := (readBuf_mem_clientConnHandler _ _ _).mp hi
      rw [hbuf] at hlast
      exact Nat.lt_of_lt_of_le hlast ((stringReads_le_iff bytes _).mpr hzero)
    · exact Nat.lt_succ_of_le (Nat.le_trans (le_of_writeMethod_mem hi) hword)
    · -- The string is shorter than the received bytes, and those fit `path`.
      have hpath := le_of_writePath_mem hi
      have hfits : bytes.length ≤ 256 := fits
      show i < 256
      omega

/-- The parsing stays inside its buffers exactly when `recv` delivered a zero byte, and
the first word in front of it has at most 15 characters. -/
theorem staysInside_iff (o : Recv) (loc : Locals) :
    StaysInside o (clientConnHandler o loc).1 ↔
      ∃ bytes nonempty fits, o = .data bytes nonempty fits ∧ 0 ∈ bytes ∧
        (firstWord (cString bytes)).length ≤ 15 := by
  cases o with
  | error errno =>
    refine iff_of_false (fun h => h 0 (reads_first _ _)) ?_
    intro ⟨_, _, _, h, _⟩
    cases h
  | closed =>
    refine iff_of_false (fun h => h 0 (reads_first _ _)) ?_
    intro ⟨_, _, _, h, _⟩
    cases h
  | data bytes nonempty fits =>
    rw [staysInside_data_iff]
    constructor
    · intro h
      exact ⟨bytes, nonempty, fits, rfl, h⟩
    · intro ⟨_, _, _, heq, h⟩
      cases heq
      exact h

/-- A request that a client really sends has no zero byte: with 18 bytes received, the
parsing reads a nineteenth. -/
theorem staysInside_fails :
    ¬ ∀ o loc, StaysInside o (clientConnHandler o loc).1 := by
  intro h
  have hread := (h (.data (ascii "GET / HTTP/1.1\r\n\r\n") (by decide) (by decide))
    ⟨List.replicate 256 0, List.replicate 16 0, List.replicate 256 0⟩).1 18
  exact absurd (hread (by decide)) (by decide)

end UpsFirmware.Esp32
