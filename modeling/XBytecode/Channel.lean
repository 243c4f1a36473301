/-!
# Input and output

A channel is the machine's connection to its user: the bytes still to be read, the text written so
far and the output device. Input is read by lines of UTF-8 text. Output is asked of the device,
which is any rule for what to do with a request in view of the earlier ones: it can refuse a write,
also when it has taken a part of the text, and it can refuse a flush.
-/

namespace XBytecode

/-- What a device is asked to do. -/
inductive Device.Request where
  /-- Take a text. -/
  | write (text : String)
  /-- Pass on what it has been given. -/
  | flush
  deriving DecidableEq, Repr

/-- What a device makes of a request. -/
inductive Device.Reply where
  /-- The request is carried out. -/
  | done
  /-- The request is refused. Of a text, the first `taken` characters have been taken. -/
  | refused (taken : Nat) (reason : String)
  deriving DecidableEq, Repr

/-- An output device, known by its replies. -/
structure Device where
  /-- The reply to a request, in view of the requests before it, latest first. -/
  reply : Device.Request → List Device.Request → Device.Reply

namespace Device

/-- The device that carries out every request. -/
def working : Device where
  reply _ _ := .done

/-- The device that refuses every write. -/
def closed : Device where
  reply
    | .write _, _ => .refused 0 "output closed"
    | .flush, _ => .done

/-- The device that refuses every flush. -/
def unflushable : Device where
  reply
    | .write _, _ => .done
    | .flush, _ => .refused 0 "flush failed"

/-- A device that works. -/
instance : Inhabited Device := ⟨working⟩

end Device

/-- What can go wrong between the machine and its user. -/
inductive DeviceError where
  /-- The device refuses a request. -/
  | refused (reason : String)
  /-- A line of the input is not UTF-8 text. -/
  | notText
  deriving DecidableEq, Repr

/-- The text of a device error. -/
def DeviceError.message : DeviceError → String
  | refused reason => reason
  | notText => "stream did not contain valid UTF-8"

/-- The connection of a machine to its user. -/
structure Channel where
  /-- The bytes that have not been read. -/
  input : List UInt8 := []
  /-- The text that has been written. -/
  written : String := ""
  /-- The device that takes the text. -/
  device : Device := .working
  /-- What has been asked of the device, latest request first. -/
  requests : List Device.Request := []
  deriving Inhabited

namespace Channel

/-- An action on a channel. An action that fails also says what it leaves behind. -/
abbrev Act := EStateM DeviceError Channel

/-- Writes a text, or as much of it as the device takes. -/
def write (text : String) : Act Unit := fun c =>
  let requests := .write text :: c.requests
  match c.device.reply (.write text) c.requests with
  | .done => .ok () { c with written := c.written ++ text, requests }
  | .refused taken reason =>
    let part := String.ofList (text.toList.take taken)
    .error (.refused reason) { c with written := c.written ++ part, requests }

/-- Makes the device pass on what it has been given. -/
def flush : Act Unit := fun c =>
  let requests := .flush :: c.requests
  match c.device.reply .flush c.requests with
  | .done => .ok () { c with requests }
  | .refused _ reason => .error (.refused reason) { c with requests }

/-- The bytes of the first line, its line feed included, and the bytes behind it. -/
def cutLine (bytes : List UInt8) : List UInt8 × List UInt8 :=
  match bytes.dropWhile (· != 10) with
  | feed :: rest => (bytes.takeWhile (· != 10) ++ [feed], rest)
  | [] => (bytes, [])

/-- Cutting a line off loses nothing. -/
theorem cutLine_append (bytes : List UInt8) : (cutLine bytes).1 ++ (cutLine bytes).2 = bytes := by
  have whole : bytes.takeWhile (· != 10) ++ bytes.dropWhile (· != 10) = bytes :=
    List.takeWhile_append_dropWhile
  unfold cutLine
  split
  · next feed rest h => rw [List.append_assoc, List.singleton_append, ← h, whole]
  · simp

/-- The text without the line feeds and carriage returns that it ends in. -/
def stripEnd (text : String) : String :=
  String.ofList (text.toList.reverse.dropWhile fun c => c == '\n' || c == '\r').reverse

/-- Reads a line and drops its end; at the end of the input there is none. A line that is not text
has been read all the same. -/
def readLine : Act (Option String) := fun c =>
  if c.input.isEmpty then .ok none c
  else
    let (line, rest) := cutLine c.input
    match String.fromUTF8? (ByteArray.mk line.toArray) with
    | some text => .ok (some (stripEnd text)) { c with input := rest }
    | none => .error .notText { c with input := rest }

/-- Hands over what has been written and starts afresh. -/
def takeWritten (c : Channel) : String × Channel :=
  (c.written, { c with written := "" })

end Channel

end XBytecode
