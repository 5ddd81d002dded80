import UpsFirmware.Esp32.Request
import UpsFirmware.Esp32.Sendall

/-!
# `UpsFirmware.Esp32.Response`: how the web server answers

Behind the parsing of `UpsFirmware.Esp32.Request`, `client_conn_handler`
(`esp32-app/src/http.c`) answers. A status behind the blank line of the request is kept
and gets no answer. `GET` and `POST` have a handler each, and `send_response` builds a text
in `response[1024]` and gives it to `sendall`. All lines of the server end with a line
feed alone.

`serve` lists what the handler does, and is `none` where C leaves the behaviour open:
`response` overrun, or `%s` of a null pointer. The page at `/` is generated from
`index.html.bin`, and it is a parameter.

`serve_one_response` holds for everything that may be received. `submit_response` is the
answer to a `POST /submit`, and `submit_received` what the client gets of it. `body` points
at the blank line of the request and not behind it, so the client gets back a longer body
than it sent (`submit_never_echoes`).
-/

set_option autoImplicit false

namespace UpsFirmware.Esp32

open Lib

/-- `sizeof(response)`. -/
def RESPONSE_SIZE : Nat := 1024

/-- What the handler does. `quit` stores `running_status` and `want_to_quit`, and gives
`quit_lock`. -/
inductive HandlerEffect where
  | printk (text : List UInt8)
  | sendall (bytes : List UInt8)
  | quit (running : Bool)
  | close
deriving DecidableEq

/-- `send_response`. -/
def sendResponse (header contentType : String) (body : List UInt8) :
    Option (List HandlerEffect) :=
  let response :=
    ascii header ++ ascii "Content-Type: " ++ ascii contentType ++ ascii "\n\n" ++ body
  -- `sprintf` stores a terminator, too.
  if response.length < RESPONSE_SIZE then
    if response.length ≠ 0 then some [.sendall response]
    else some [.printk (ascii "sprintf Returned: 0")]
  else none

/-- `handle_get_request`. -/
def handleGetRequest (indexContent path : List UInt8) : Option (List HandlerEffect) :=
  if path = ascii "/" then some [.printk (ascii "Got / request"), .sendall indexContent]
  else if path = ascii "/hello" then
    sendResponse "HTTP/1.1 200 OK\n" "text/html"
      (ascii "<html><body><h1>Hello, World from /hello!</h1></body></html>")
  else
    sendResponse "HTTP/1.1 404 Not Found\n" "text/html"
      (ascii "<html><body><h1>404 Not Found</h1></body></html>")

/-- `handle_post_request`. -/
def handlePostRequest (path : List UInt8) (body : Option (List UInt8)) :
    Option (List HandlerEffect) :=
  if path = ascii "/submit" then
    match body with
    | some body =>
        (sendResponse "HTTP/1.1 200 OK\n" "text/plain" body).map fun fx =>
          .printk (ascii "Got /submit POST: " ++ body) :: fx
    | none => none
  else
    sendResponse "HTTP/1.1 404 Not Found\n" "text/html"
      (ascii "<html><body><h1>404 Not Found</h1></body></html>")

/-- The branches of `client_conn_handler`. -/
def answer (indexContent : List UInt8) : Branch → Option (List HandlerEffect)
  | .status running => some [.quit running]
  | .get path => handleGetRequest indexContent path
  | .post path body => handlePostRequest path body
  | .notAllowed =>
      sendResponse "HTTP/1.1 405 Method Not Allowed\n" "text/html"
        (ascii "<html><body><h1>405 Method Not Allowed</h1></body></html>")

/-- `client_conn_handler` behind `recv`. -/
def serve (indexContent : List UInt8) (o : Recv) (loc : Locals) : Option (List HandlerEffect) :=
  (answer indexContent (clientConnHandler o loc).2).map fun fx => fx ++ [.close]

/-- The buffers that are given to `sendall`. -/
def responses (fx : List HandlerEffect) : List (List UInt8) :=
  fx.filterMap fun
    | .sendall bytes => some bytes
    | _ => none

/-! ### The law -/

/-- The content of a response: the bytes behind its first blank line. A line ends with a
line feed, with or without a carriage return. -/
def content : List UInt8 → Option (List UInt8)
  | 10 :: 10 :: rest => some rest
  | 10 :: 13 :: 10 :: rest => some rest
  | _ :: rest => content rest
  | [] => none

/-- The line break twice. -/
abbrev BLANK_LINE : List UInt8 := ascii "\r\n\r\n"

/-- A `POST /submit` that `recv` delivers at once. `head` is the rest of the request line
with the headers, up to the first blank line, and `body` is what comes behind it. -/
structure SubmitRequest where
  head : List UInt8
  body : List UInt8
  pathEnds : head.head?.all isSpace = true
  firstBlank : ¬ BLANK_LINE <:+: ascii "POST /submit" ++ head ++ BLANK_LINE.dropLast
  bodyNulFree : 0 ∉ body
  fits : (ascii "POST /submit" ++ head ++ BLANK_LINE ++ body).length < BUF_SIZE

/-- The bytes of the request. -/
def SubmitRequest.bytes (req : SubmitRequest) : List UInt8 :=
  ascii "POST /submit" ++ req.head ++ BLANK_LINE ++ req.body

/-- `recv` delivers the request. -/
def SubmitRequest.received (req : SubmitRequest) : Recv :=
  .data req.bytes (fun h => by simp [bytes, ascii] at h) (Nat.le_of_lt req.fits)

/-- The server sends one response, with status 200, and its content is the body of the
request. -/
def EchoesBody (indexContent : List UInt8) (req : SubmitRequest) (loc : Locals) : Prop :=
  ∃ fx response, serve indexContent req.received loc = some fx ∧ responses fx = [response] ∧
    ascii "HTTP/1.1 200 " <+: response ∧ content response = some req.body

/-! ### One answer -/

theorem responses_append (fx gx : List HandlerEffect) :
    responses (fx ++ gx) = responses fx ++ responses gx := List.filterMap_append

/-- `send_response` gives one buffer to `sendall`. -/
theorem sendResponse_eq_some {header contentType : String} {body : List UInt8}
    {fx : List HandlerEffect} (h : sendResponse header contentType body = some fx) :
    (responses fx).length ≤ 1 := by
  simp only [sendResponse] at h
  split at h
  · split at h
    · cases h
      exact Nat.le_refl 1
    · cases h
      exact Nat.zero_le 1
  · cases h

/-- The two handlers give at most one buffer to `sendall`. -/
theorem handleGetRequest_eq_some {indexContent path : List UInt8} {fx : List HandlerEffect}
    (h : handleGetRequest indexContent path = some fx) : (responses fx).length ≤ 1 := by
  rw [handleGetRequest] at h
  split at h
  · cases h
    exact Nat.le_refl 1
  · split at h
    · exact sendResponse_eq_some h
    · exact sendResponse_eq_some h

theorem handlePostRequest_eq_some {path : List UInt8} {body : Option (List UInt8)}
    {fx : List HandlerEffect} (h : handlePostRequest path body = some fx) :
    (responses fx).length ≤ 1 := by
  rw [handlePostRequest.eq_def] at h
  split at h
  · cases body with
    | none => cases h
    | some body =>
      obtain ⟨gx, hsend, rfl⟩ := Option.map_eq_some_iff.mp h
      show (responses gx).length ≤ 1
      exact sendResponse_eq_some hsend
  · exact sendResponse_eq_some h

/-- Whatever is received, the client gets at most one response, and the connection is
closed behind it. -/
theorem serve_one_response {indexContent : List UInt8} {o : Recv} {loc : Locals}
    {fx : List HandlerEffect} (h : serve indexContent o loc = some fx) :
    (responses fx).length ≤ 1 ∧ fx.getLast? = some .close := by
  obtain ⟨gx, hanswer, rfl⟩ := Option.map_eq_some_iff.mp h
  refine ⟨?_, List.getLast?_concat⟩
  rw [responses_append, show responses [.close] = [] from rfl, List.append_nil]
  cases hbranch : (clientConnHandler o loc).2 with
  | status running =>
    rw [hbranch] at hanswer
    cases hanswer
    exact Nat.zero_le 1
  | get path =>
    rw [hbranch, answer] at hanswer
    exact handleGetRequest_eq_some hanswer
  | post path body =>
    rw [hbranch, answer] at hanswer
    exact handlePostRequest_eq_some hanswer
  | notAllowed =>
    rw [hbranch, answer] at hanswer
    exact sendResponse_eq_some hanswer

/-! ### The parsing of the request -/

/-- The string that the handler parses. -/
def SubmitRequest.text (req : SubmitRequest) (loc : Locals) : List UInt8 :=
  cString (req.received.buffer loc.stack)

variable (req : SubmitRequest) (loc : Locals)

/-- The stale bytes of `buf` follow the request. -/
theorem SubmitRequest.buffer_eq :
    req.received.buffer loc.stack
      = ascii "POST /submit" ++ (req.head ++ (BLANK_LINE ++ (req.body ++
          loc.stack.drop req.bytes.length))) := by
  show req.bytes ++ loc.stack.drop req.bytes.length = _
  simp only [bytes, List.append_assoc]

/-- White space follows the path. -/
theorem SubmitRequest.text_eq_cons :
    ∃ c rest, isSpace c = true ∧ req.text loc = ascii "POST /submit" ++ c :: rest := by
  have hfirst : ∃ c rest, isSpace c = true ∧
      req.head ++ (BLANK_LINE ++ (req.body ++ loc.stack.drop req.bytes.length)) = c :: rest := by
    have hspace := req.pathEnds
    cases hhead : req.head with
    | nil => exact ⟨13, _, by decide, rfl⟩
    | cons c head =>
      rw [hhead] at hspace
      exact ⟨c, _, hspace, rfl⟩
  obtain ⟨c, rest, hspace, heq⟩ := hfirst
  have hc : c ≠ 0 := by
    intro hzero
    rw [hzero] at hspace
    exact absurd hspace (by decide)
  refine ⟨c, cString rest, hspace, ?_⟩
  rw [text, req.buffer_eq, heq, cString_append_of_notMem (by decide)]
  rw [cString, List.takeWhile_cons_of_pos (by simpa using hc)]
  rfl

/-- The two words that `sscanf` finds. -/
theorem scanRequest_submit :
    (scanRequest (req.received.buffer loc.stack) loc).2 = (ascii "POST", ascii "/submit") := by
  obtain ⟨c, rest, hspace, htext⟩ := req.text_eq_cons loc
  have hmethod : scanWord (cString (req.received.buffer loc.stack))
      = some (ascii "POST", 32 :: (ascii "/submit" ++ c :: rest)) := by
    rw [← SubmitRequest.text, htext]
    have hword : (ascii "POST").all (fun c => !isSpace c) = true := by decide
    exact scanWord_word (List.cons_ne_nil _ _) hword (show isSpace 32 = true by decide) _
  have hpath : scanWord (32 :: (ascii "/submit" ++ c :: rest))
      = some (ascii "/submit", c :: rest) := by
    rw [scanWord_cons_of_isSpace (by decide)]
    have hword : (ascii "/submit").all (fun c => !isSpace c) = true := by decide
    exact scanWord_word (List.cons_ne_nil _ _) hword hspace rest
  simp only [scanRequest, hmethod, hpath]

/-- The branch that the handler takes. -/
theorem clientConnHandler_submit :
    (clientConnHandler req.received loc).2
      = if (strstr (ascii "\r\n\r\nOK") (req.text loc)).isSome then .status true
        else if (strstr (ascii "\r\n\r\nFAIL") (req.text loc)).isSome then .status false
        else .post (ascii "/submit") (strstr BLANK_LINE (req.text loc)) := by
  have hget : ¬ ascii "POST" = ascii "GET" := by decide
  rw [clientConnHandler_snd, scanRequest_submit]
  show (if _ then _ else if _ then _ else if ascii "POST" = ascii "GET" then _ else
    if ascii "POST" = ascii "POST" then _ else _) = _
  rw [if_neg hget, if_pos rfl]
  rfl

/-- With a zero among the headers, the string ends there and has no blank line. -/
theorem strstr_text_of_mem (hzero : 0 ∈ req.head) : strstr BLANK_LINE (req.text loc) = none := by
  rw [strstr_eq_none_iff]
  intro hmatch
  refine req.firstBlank (hmatch.trans (List.IsPrefix.isInfix ?_))
  rw [SubmitRequest.text, req.buffer_eq, cString_append_of_notMem (by decide),
    cString_append hzero, List.append_assoc]
  refine (List.prefix_append_right_inj _).mpr ?_
  exact (List.takeWhile_prefix _).trans (List.prefix_append _ _)

/-- Otherwise the string goes on behind the request, up to the first zero of the stale
bytes. -/
theorem SubmitRequest.text_eq (hzero : 0 ∉ req.head) :
    req.text loc = req.bytes ++ cString (loc.stack.drop req.bytes.length) := by
  rw [text, req.buffer_eq, cString_append_of_notMem (by decide),
    cString_append_of_notMem hzero, cString_append_of_notMem (by decide),
    cString_append_of_notMem req.bodyNulFree]
  simp only [bytes, List.append_assoc]

/-- And `body` points at the blank line. -/
theorem strstr_text (hzero : 0 ∉ req.head) :
    strstr BLANK_LINE (req.text loc)
      = some (BLANK_LINE ++ (req.body ++ cString (loc.stack.drop req.bytes.length))) := by
  rw [req.text_eq loc hzero, SubmitRequest.bytes, List.append_assoc _ req.body]
  exact strstr_append (by decide) req.firstBlank _

/-! ### The answer -/

/-- The header block in front of an echo. -/
abbrev OK_HEADER : List UInt8 := ascii "HTTP/1.1 200 OK\nContent-Type: text/plain\n\n"

/-- What `send_response` builds for an echo. -/
theorem sendResponse_ok (body : List UInt8) :
    sendResponse "HTTP/1.1 200 OK\n" "text/plain" body
      = if (OK_HEADER ++ body).length < RESPONSE_SIZE then some [.sendall (OK_HEADER ++ body)]
        else none := by
  have hheader : ascii "HTTP/1.1 200 OK\n" ++ ascii "Content-Type: " ++ ascii "text/plain" ++
      ascii "\n\n" = OK_HEADER := by decide
  have hne : (OK_HEADER ++ body).length ≠ 0 := by
    rw [List.length_append]
    exact Nat.ne_of_gt (Nat.add_pos_left (by decide) _)
  rw [sendResponse, hheader]
  show (if (OK_HEADER ++ body).length < RESPONSE_SIZE then
    if (OK_HEADER ++ body).length ≠ 0 then _ else _ else none) = _
  rw [if_pos hne]

/-- The content of an echo is what `body` points at. -/
theorem content_ok (body : List UInt8) : content (OK_HEADER ++ body) = some body := rfl

variable (indexContent : List UInt8)

/-- What the handler does with the string that `body` points at. -/
def echo (text : List UInt8) : Option (List HandlerEffect) :=
  if (OK_HEADER ++ text).length < RESPONSE_SIZE then
    some [.printk (ascii "Got /submit POST: " ++ text), .sendall (OK_HEADER ++ text), .close]
  else none

/-- The run of the handler on the request: a status is kept, and anything else is echoed
from the blank line on. -/
theorem serve_submit :
    serve indexContent req.received loc
      = if (strstr (ascii "\r\n\r\nOK") (req.text loc)).isSome then some [.quit true, .close]
        else if (strstr (ascii "\r\n\r\nFAIL") (req.text loc)).isSome then
          some [.quit false, .close]
        else (strstr BLANK_LINE (req.text loc)).bind echo := by
  rw [serve, clientConnHandler_submit]
  split
  · rfl
  · split
    · rfl
    · cases strstr BLANK_LINE (req.text loc) with
      | none => rfl
      | some text =>
        show Option.map _ (handlePostRequest (ascii "/submit") (some text)) = echo text
        rw [handlePostRequest, if_pos rfl, sendResponse_ok, echo]
        split
        · rfl
        · rfl

/-- A response to the request has a content that is longer than the body. -/
theorem length_lt_of_content {fx : List HandlerEffect} {response rest : List UInt8}
    (hserve : serve indexContent req.received loc = some fx)
    (hresponse : responses fx = [response]) (hcontent : content response = some rest) :
    req.body.length < rest.length := by
  rw [serve_submit] at hserve
  split at hserve
  · -- A status has no answer.
    cases hserve
    cases hresponse
  · split at hserve
    · cases hserve
      cases hresponse
    · by_cases hzero : 0 ∈ req.head
      · rw [strstr_text_of_mem req loc hzero] at hserve
        cases hserve
      · rw [strstr_text req loc hzero, Option.bind_some, echo] at hserve
        split at hserve
        · cases hserve
          cases hresponse
          rw [content_ok, Option.some.injEq] at hcontent
          rw [← hcontent, List.length_append, List.length_append]
          have hblank : BLANK_LINE.length = 4 := by decide
          omega
        · cases hserve

/-- The request has at most 255 bytes, so an echo fits `response`. -/
theorem SubmitRequest.length_echo_lt :
    (OK_HEADER ++ (BLANK_LINE ++ req.body)).length < RESPONSE_SIZE := by
  have hlen := req.fits
  have hheader : OK_HEADER.length = 42 := by decide
  simp only [List.length_append, BUF_SIZE] at hlen
  rw [List.length_append, List.length_append, hheader, RESPONSE_SIZE]
  omega

/-- What the server sends for a request without a zero, if the stale byte behind it is
one: nothing for a status, and otherwise one response, which ends with the blank line and
the body. -/
theorem submit_response (hhead : 0 ∉ req.head)
    (hstale : loc.stack[req.bytes.length]? = some 0) :
    ∃ fx, serve indexContent req.received loc = some fx ∧
      responses fx
        = if ascii "\r\n\r\nOK" <:+: req.bytes ∨ ascii "\r\n\r\nFAIL" <:+: req.bytes then []
          else [OK_HEADER ++ (BLANK_LINE ++ req.body)] := by
  have hstop : cString (loc.stack.drop req.bytes.length) = [] := by
    obtain ⟨hlt, hget⟩ := List.getElem?_eq_some_iff.mp hstale
    rw [List.drop_eq_getElem_cons hlt, hget]
    rfl
  have htext : req.text loc = req.bytes := by
    rw [req.text_eq loc hhead, hstop, List.append_nil]
  rw [serve_submit, strstr_text req loc hhead, hstop, List.append_nil, htext, Option.bind_some,
    echo, if_pos req.length_echo_lt]
  split
  · next hok =>
    rw [isSome_strstr_iff] at hok
    refine ⟨_, rfl, ?_⟩
    rw [if_pos (.inl hok)]
    rfl
  · next hok =>
    rw [isSome_strstr_iff] at hok
    split
    · next hfail =>
      rw [isSome_strstr_iff] at hfail
      refine ⟨_, rfl, ?_⟩
      rw [if_pos (.inr hfail)]
      rfl
    · next hfail =>
      rw [isSome_strstr_iff] at hfail
      refine ⟨_, rfl, ?_⟩
      rw [if_neg (not_or.mpr ⟨hok, hfail⟩)]
      rfl

/-- What the client gets then, if no `send` fails and the request is no status: exactly
that response, however it is cut into pieces. -/
theorem submit_received (hhead : 0 ∉ req.head)
    (hstale : loc.stack[req.bytes.length]? = some 0)
    (hok : ¬ ascii "\r\n\r\nOK" <:+: req.bytes) (hfail : ¬ ascii "\r\n\r\nFAIL" <:+: req.bytes)
    (sock : Socket) (hgood : ∀ call len, 0 ≤ sock.send call len) :
    ∃ fx calls, serve indexContent req.received loc = some fx ∧
      (responses fx).map (fun bytes => sendall sock bytes (UInt32.ofNat bytes.length))
        = [some (0, calls)] ∧
      accepted calls = OK_HEADER ++ (BLANK_LINE ++ req.body) := by
  obtain ⟨fx, hserve, hresponse⟩ := submit_response req loc indexContent hhead hstale
  rw [if_neg (not_or.mpr ⟨hok, hfail⟩)] at hresponse
  have hshort : (OK_HEADER ++ (BLANK_LINE ++ req.body)).length < 4294967296 := by
    have hlen := req.length_echo_lt
    rw [RESPONSE_SIZE] at hlen
    omega
  obtain ⟨calls, hcalls, hbytes⟩ := sendall_complete sock hgood _ hshort
  refine ⟨fx, calls, hserve, ?_, hbytes⟩
  rw [hresponse, List.map_singleton, hcalls]

/-- No request gets its own body back. -/
theorem submit_never_echoes : ¬ EchoesBody indexContent req loc := by
  intro ⟨fx, response, hserve, hresponse, _, hcontent⟩
  exact absurd (length_lt_of_content req loc indexContent hserve hresponse hcontent)
    (Nat.lt_irrefl _)

/-- A client posts `hello`. -/
def helloRequest : SubmitRequest where
  head := ascii " HTTP/1.1\r\nHost: ups"
  body := ascii "hello"
  pathEnds := by decide
  firstBlank := by
    rw [← strstr_eq_none_iff]
    decide
  bodyNulFree := by decide
  fits := by decide

/-- The stale bytes are zero, and the content of the response is 9 bytes long. -/
theorem submit_echo_fails :
    ¬ ∀ indexContent req loc, EchoesBody indexContent req loc := by
  intro h
  obtain ⟨fx, response, hserve, hresponse, _, hcontent⟩ := h [] helloRequest
    ⟨List.replicate 256 0, List.replicate 16 0, List.replicate 256 0⟩
  exact absurd (length_lt_of_content helloRequest _ [] hserve hresponse hcontent)
    (Nat.lt_irrefl _)

end UpsFirmware.Esp32
