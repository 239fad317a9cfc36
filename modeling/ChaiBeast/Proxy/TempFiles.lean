import ChaiBeast.Http.Message
import ChaiBeast.Proxy.LocalTime
import ChaiBeast.Data.Ownership
import ChaiBeast.Data.Transition

namespace ChaiBeast.Proxy

open Http Data.Ownership Data.Transition

/-! Requests whose responses pass through a temporary file, all in the one
working directory of the proxy. -/

inductive BodyReader where
  | readAsFile
  | fileBodyReader
deriving Repr, DecidableEq

def BodyReader.fileName (zone : Int → Int) (now : Int) : BodyReader → CppString
  | .readAsFile => getLocalTime zone now
  | .fileBodyReader => "tmp".toList

/-- One forwarded request: the function that reads the response and the body
its upstream sends, in the chunks in which it arrives. -/
structure Upstream where
  reader : BodyReader
  chunks : List Bytes
deriving Repr, DecidableEq

def Upstream.body (upstream : Upstream) : Bytes :=
  upstream.chunks.flatten

/-- How far a request is.  While `storing`, `rest` has not arrived yet; while
`sending`, `remain` bytes are still promised to the client. -/
inductive Transfer where
  | waiting
  | storing (file : CppString) (position : Nat) (rest : List Bytes)
  | sending (file : CppString) (position remain : Nat) (sent : Bytes)
  | finished (body : Bytes)
  | failed
deriving Repr, DecidableEq

def Transfer.holds : Transfer → Option CppString
  | .storing file _ _ => some file
  | .sending file _ _ _ => some file
  | _ => none

abbrev Transfers (ι : Type u) := World ι CppString Bytes Transfer

/-- `write` at an offset: a gap before it reads as zeros. -/
def writeAt (content : Bytes) (position : Nat) (chunk : Bytes) : Bytes :=
  if chunk.isEmpty then content
  else
    content.take position ++ List.replicate (position - content.length) 0 ++ chunk ++
      content.drop (position + chunk.length)

def Transfer.send (file : CppString) (position remain : Nat) (sent : Bytes) : Transfer :=
  if remain = 0 then .finished sent else .sending file position remain sent

inductive Action where
  /-- `now` is the reading that the name is made from, which need not be the
  request's own. -/
  | opens (now : Int)
  | write
  /-- `seek(0)` after the last chunk; the response then has the size of the file. -/
  | seek
  | read (room : Nat)
deriving Repr, DecidableEq

structure Event (ι : Type u) where
  request : ι
  action : Action

variable {ι : Type u} [DecidableEq ι]

def step (zone : Int → Int) (upstreams : ι → Upstream) (world : Transfers ι) (event : Event ι) :
    Option (Transfers ι) :=
  let i := event.request
  match event.action, world.clients i with
  -- Opening truncates whatever another request keeps under the name.
  | .opens now, .waiting =>
      let file := (upstreams i).reader.fileName zone now
      some (world.store i (.storing file 0 (upstreams i).chunks) file [])
  | .write, .storing file position (chunk :: rest) =>
      some (world.store i (.storing file (position + chunk.length) rest) file
        (writeAt (world.cells file) position chunk))
  | .seek, .storing file _ [] => some (world.move i (.send file 0 (world.cells file).length []))
  | .read room, .sending file position remain sent =>
      let got := ((world.cells file).drop position).take (min room remain)
      if room = 0 then none
      -- The end of the file before the promised size is a short read.
      else if got.isEmpty then some (world.move i .failed)
      else some (world.move i (.send file (position + got.length) (remain - got.length) (sent ++ got)))
  | _, _ => none

/-- Nothing is sent but the upstream's body, and all of it in the end. -/
def Transfer.Faithful (upstream : Upstream) : Transfer → Prop
  | .waiting => True
  | .storing .. => True
  | .sending _ _ _ sent => sent <+: upstream.body
  | .finished body => body = upstream.body
  | .failed => False

instance (upstream : Upstream) : DecidablePred (Transfer.Faithful upstream)
  | .waiting | .storing .. => inferInstanceAs (Decidable True)
  | .sending _ _ _ sent => inferInstanceAs (Decidable (sent <+: upstream.body))
  | .finished body => inferInstanceAs (Decidable (body = upstream.body))
  | .failed => inferInstanceAs (Decidable False)

/-- A request opens a file that no other request has open. -/
def OpensAlone (zone : Int → Int) (upstreams : ι → Upstream) (world : Transfers ι) (event : Event ι) :
    Prop :=
  match event.action with
  | .opens now =>
      Free Transfer.holds world event.request ((upstreams event.request).reader.fileName zone now)
  | _ => True

instance [Fintype ι] (zone : Int → Int) (upstreams : ι → Upstream) (world : Transfers ι) :
    ∀ event, Decidable (OpensAlone zone upstreams world event)
  | ⟨_, .opens _⟩ => inferInstanceAs (Decidable (Free ..))
  | ⟨_, .write⟩ | ⟨_, .seek⟩ | ⟨_, .read _⟩ => inferInstanceAs (Decidable True)

def Transfer.InOrder (upstream : Upstream) : Transfer → Option Bytes → Prop
  | .storing _ position rest, some content =>
      position = content.length ∧ content ++ rest.flatten = upstream.body
  | .sending _ position remain sent, some content =>
      content = upstream.body ∧ sent = upstream.body.take position ∧
        position + remain = upstream.body.length ∧ 0 < remain
  | transfer, _ => transfer.Faithful upstream

/-- Requests meet on a file name when they share `tmp` or one second. -/
theorem BodyReader.fileName_eq_iff (zone : Int → Int) (now now' : Int) (reader reader' : BodyReader) :
    reader.fileName zone now = reader'.fileName zone now' ↔
      reader = reader' ∧ (reader = .readAsFile → toTimeT now = toTimeT now') := by
  have dashed : ∀ now, '-' ∈ getLocalTime zone now := by
    intro now
    simp [getLocalTime, strftime]
  have plain : '-' ∉ "tmp".toList := by decide
  have differ : ∀ now, getLocalTime zone now ≠ "tmp".toList := fun now same =>
    plain (same ▸ dashed now)
  cases reader <;> cases reader'
  · simp [fileName, getLocalTime_eq_iff]
  · exact iff_of_false (differ now) fun both => absurd both.1 (by decide)
  · exact iff_of_false (differ now').symm fun both => absurd both.1 (by decide)
  · simp [fileName]

theorem writeAt_end (content chunk : Bytes) :
    writeAt content content.length chunk = content ++ chunk := by
  cases chunk <;> simp [writeAt]

theorem Transfer.holds_send {file other : CppString} {position remain : Nat} {sent : Bytes}
    (held : (Transfer.send file position remain sent).holds = some other) : other = file := by
  unfold Transfer.send at held
  split at held
  · cases held
  · exact (Option.some.inj held).symm

theorem Transfer.inOrder_send {upstream : Upstream} {file : CppString} {position remain : Nat}
    {sent : Bytes} {cells : CppString → Bytes} (stored : cells file = upstream.body)
    (taken : sent = upstream.body.take position)
    (sizes : position + remain = upstream.body.length) :
    (Transfer.send file position remain sent).InOrder upstream
      ((Transfer.send file position remain sent).holds.map cells) := by
  by_cases done : remain = 0
  · have everything : position = upstream.body.length := by omega
    simp [Transfer.send, done, Transfer.holds, Transfer.InOrder, Transfer.Faithful, taken, everything]
  · simp [Transfer.send, done, Transfer.holds, Transfer.InOrder, stored, taken, sizes,
      Nat.pos_of_ne_zero done]

theorem step_sound {zone : Int → Int} {upstreams : ι → Upstream} {world next : Transfers ι}
    {event : Event ι}
    (sound : Sound Transfer.holds (fun i => Transfer.InOrder (upstreams i)) world)
    (apart : OpensAlone zone upstreams world event)
    (taken : step zone upstreams world event = some next) :
    Sound Transfer.holds (fun i => Transfer.InOrder (upstreams i)) next := by
  obtain ⟨i, action⟩ := event
  have own := sound.valid i
  have alone := sound.alone i
  simp only [step] at taken
  split at taken
  -- An open is the only step that touches a file the request does not hold yet.
  case h_1 now transfer phase =>
    cases taken
    refine sound.store apart ?_ fun _ same => (Option.some.inj same).symm
    simp [Transfer.holds, Transfer.InOrder, Upstream.body]
  case h_2 file position chunk rest phase =>
    cases taken
    rw [phase] at own
    obtain ⟨atEnd, whole⟩ := own
    refine sound.store (alone file (by rw [phase]; rfl)) ?_ fun _ same => (Option.some.inj same).symm
    subst atEnd
    simpa [Transfer.holds, Transfer.InOrder, writeAt_end] using whole
  case h_3 file position phase =>
    cases taken
    rw [phase] at own
    obtain ⟨-, whole⟩ := own
    have stored : world.cells file = (upstreams i).body := by simpa using whole
    refine sound.move (by rw [phase]; rfl) ?_ fun _ => Transfer.holds_send
    exact Transfer.inOrder_send stored (by simp) (by simp [stored])
  case h_4 room file position remain sent phase =>
    rw [phase] at own
    obtain ⟨stored, soFar, sizes, pending⟩ := own
    have held : (world.clients i).holds = some file := by rw [phase]; rfl
    generalize shape : ((world.cells file).drop position).take (min room remain) = got at taken
    have count : got.length = min room remain := by
      rw [← shape, List.length_take, List.length_drop, stored]
      omega
    split at taken
    · cases taken
    rename_i positive
    have nonempty : got.isEmpty = false := by
      rw [List.isEmpty_eq_false_iff, ← List.length_pos_iff]
      omega
    rw [nonempty] at taken
    cases taken
    refine sound.move held ?_ fun _ => Transfer.holds_send
    refine Transfer.inOrder_send stored ?_ (by omega)
    rw [soFar, count, List.take_add, ← shape, stored]
  case h_5 => cases taken

theorem Transfer.InOrder.faithful {upstream : Upstream} {transfer : Transfer}
    {content : Option Bytes} (inOrder : transfer.InOrder upstream content) :
    transfer.Faithful upstream := by
  match transfer, content with
  | .storing .., some _ => trivial
  | .sending _ position _ _, some _ =>
      obtain ⟨-, soFar, -⟩ := inOrder
      exact soFar ▸ List.take_prefix position upstream.body
  | .waiting, _ | .storing .., none | .sending .., none | .finished _, _ | .failed, _ =>
      exact inOrder

/-- In every run in which no request opens a file that another one still has
open, each client is sent the body of its own upstream. -/
theorem bodies_not_mixed (zone : Int → Int) (upstreams : ι → Upstream)
    (directory : CppString → Bytes) {events : List (Event ι)}
    (apart : Obeys (step zone upstreams) (OpensAlone zone upstreams)
      ⟨directory, fun _ => .waiting⟩ events) :
    Always (step zone upstreams)
      (fun world => ∀ i, (world.clients i).Faithful (upstreams i))
      ⟨directory, fun _ => .waiting⟩ events := by
  have start : Sound Transfer.holds (fun i => Transfer.InOrder (upstreams i))
      (⟨directory, fun _ => .waiting⟩ : Transfers ι) :=
    ⟨fun _ => trivial, fun _ _ held => nomatch held⟩
  have sound := always_of_keeps (fun _ _ _ => step_sound) start apart
  intro front back split reached ran i
  exact ((sound front back split reached ran).valid i).faithful

theorem bodies_not_mixed_seconds_apart :
    let upstreams : Bool → Upstream := fun late => ⟨.readAsFile, [[if late then 1 else 0], [2]]⟩
    Always (step (fun _ => 0) upstreams)
      (fun world => ∀ i, (world.clients i).Faithful (upstreams i))
      ⟨fun _ => [], fun _ => .waiting⟩
      [⟨false, .opens 1000000000⟩, ⟨false, .write⟩, ⟨true, .opens 2000000000⟩, ⟨true, .write⟩,
        ⟨false, .write⟩, ⟨false, .seek⟩, ⟨false, .read 4096⟩, ⟨true, .write⟩, ⟨true, .seek⟩,
        ⟨true, .read 4096⟩] :=
  bodies_not_mixed _ _ _ (by decide)

theorem shared_file_mixes_bodies :
    let bodies (size : Nat) (reader : BodyReader) : Bool → Upstream := fun second =>
      ⟨reader, [List.replicate size (if second then 1 else 0)]⟩
    let events : List (Event Bool) :=
      [⟨false, .opens 1000000000⟩, ⟨true, .opens 1000000005⟩, ⟨false, .write⟩, ⟨true, .write⟩,
        ⟨false, .seek⟩, ⟨false, .read 1⟩]
    let mixed (upstreams : Bool → Upstream) : Prop :=
      ¬ Always (step (fun _ => 0) upstreams)
        (fun world => ∀ i, (world.clients i).Faithful (upstreams i))
        ⟨fun _ => [], fun _ => .waiting⟩ events
    mixed (bodies 8001 .readAsFile) ∧ mixed (bodies 3 .fileBodyReader) :=
  ⟨not_always_of_any (by decide +kernel), not_always_of_any (by decide)⟩

end ChaiBeast.Proxy
