import Pgr.Core.FixedWidth
import Pgr.Core.Utf8Lossy

/-!
# The wire protocol of the replay tool

`proto.rs`: frame tags, the frame splitter, the messages the replay client reads
and the few frames it writes by itself.  The digest of the `md5` package is the
parameter `md5Hex`, which returns the digest in lower-case hexadecimal.
-/

namespace Pgr.Proto

open Pgr.FixedWidth Pgr.Utf8Lossy

def fProtoVersion : ℕ := 196608

def fPasswordMessage : UInt8 := 0x70
def fParse : UInt8 := 0x50
def fBind : UInt8 := 0x42
def fExecute : UInt8 := 0x45
def fClose : UInt8 := 0x43
def fSync : UInt8 := 0x53
def fQuery : UInt8 := 0x51
def fTerminate : UInt8 := 0x58

def bAuthRequest : UInt8 := 0x52
def bParameterStatus : UInt8 := 0x53
def bBackendKeyData : UInt8 := 0x4B
def bError : UInt8 := 0x45
def bNotice : UInt8 := 0x4E
def bReadyForQuery : UInt8 := 0x5A

structure ErrorFields where
  severity : Option String := none
  code : Option String := none
  message : Option String := none
  detail : Option String := none
  hint : Option String := none

inductive Authentication where
  | ok
  | cleartext
  | md5 (salt : List UInt8)
  | unsupported (code : Int32)
  deriving DecidableEq

inductive BackendMessage where
  | authentication (auth : Authentication)
  | parameterStatus (name value : String)
  | backendKeyData (pid secret : Int32)
  | readyForQuery
  | errorResponse (fields : ErrorFields)
  | noticeResponse
  | other (tag : UInt8) (frame : List UInt8)

/-- The tag and the length of the frame at the front of `buf`, once it is there
as a whole.  The length field comes from the peer and is not checked. -/
def tryReadFrame (buf : List UInt8) : Option (UInt8 × ℕ) :=
  match buf with
  | tag :: b1 :: b2 :: b3 :: b4 :: _ =>
      let frameLen := 1 + ofBeBytes [b1, b2, b3, b4]
      if buf.length < frameLen then none else some (tag, frameLen)
  | _ => none

/-- The text in front of the first NUL and the bytes behind that NUL. -/
def readCstr (buf : List UInt8) : String × List UInt8 :=
  let text := buf.takeWhile (· != 0)
  (fromUtf8Lossy text, buf.drop (text.length + 1))

def ErrorFields.set (fields : ErrorFields) (fieldType : UInt8) (val : String) :
    ErrorFields :=
  if fieldType = 0x53 then { fields with severity := some val }
  else if fieldType = 0x43 then { fields with code := some val }
  else if fieldType = 0x4D then { fields with message := some val }
  else if fieldType = 0x44 then { fields with detail := some val }
  else if fieldType = 0x48 then { fields with hint := some val }
  else fields

/-- Each field takes at least its type byte, so the data shrinks. -/
def parseErrorFieldsFrom (fields : ErrorFields) (data : List UInt8) : ErrorFields :=
  match data with
  | [] => fields
  | fieldType :: rest =>
      if fieldType = 0 then fields
      else parseErrorFieldsFrom (fields.set fieldType (readCstr rest).1) (readCstr rest).2
  termination_by data.length
  decreasing_by
    simp only [readCstr, List.length_drop, List.length_cons]
    omega

def parseErrorFields (data : List UInt8) : ErrorFields :=
  parseErrorFieldsFrom {} data

def readI32 (data : List UInt8) : Int32 :=
  (UInt32.ofNat (ofBeBytes (data.take 4))).toInt32

/-- `none` is the error of a message that is too short for its kind. -/
def parseMessage (tag : UInt8) (data : List UInt8) : Option BackendMessage :=
  if tag = bAuthRequest then
    if data.length < 4 then none
    else if readI32 data = 0 then some (.authentication .ok)
    else if readI32 data = 3 then some (.authentication .cleartext)
    else if readI32 data = 5 then
      if (data.drop 4).length < 4 then none
      else some (.authentication (.md5 ((data.drop 4).take 4)))
    else some (.authentication (.unsupported (readI32 data)))
  else if tag = bParameterStatus then
    some (.parameterStatus (readCstr data).1 (readCstr (readCstr data).2).1)
  else if tag = bBackendKeyData then
    if data.length < 8 then none
    else some (.backendKeyData (readI32 data) (readI32 (data.drop 4)))
  else if tag = bReadyForQuery then some .readyForQuery
  else if tag = bError then some (.errorResponse (parseErrorFields data))
  else if tag = bNotice then some .noticeResponse
  else some (.other tag data)

def terminateMsg : List UInt8 := [fTerminate, 0, 0, 0, 4]

/-- Parameter names and values as bytes, each terminated by NUL. -/
def encodeStartup (params : List (String × String)) : List UInt8 :=
  let body := beBytes 4 fProtoVersion ++
    (params.flatMap fun param => asBytes param.1 ++ [0] ++ asBytes param.2 ++ [0]) ++ [0]
  beBytes 4 (4 + body.length) ++ body

def encodePassword (pass : String) : List UInt8 :=
  [fPasswordMessage] ++ beBytes 4 (4 + (asBytes pass).length + 1) ++ asBytes pass ++ [0]

def hashMd5Password (md5Hex : List UInt8 → String) (user pass : String)
    (salt : List UInt8) : String :=
  let inner := md5Hex (asBytes (pass ++ user))
  "md5" ++ md5Hex (asBytes inner ++ salt)

end Pgr.Proto
