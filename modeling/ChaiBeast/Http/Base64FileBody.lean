import ChaiBeast.Data.Base64
import ChaiBeast.Http.Message

namespace ChaiBeast.Http

open ChaiBeast.Data

/-! `base64_file_body` of include/base64_file_body.hpp: a file that is encoded
buffer by buffer while it is sent, under a length computed for the whole file.
The file reader it derives from and the encoder it calls belong to Beast and
are parameters. -/

/-- `get(ec)` of a body writer: a buffer and whether more may follow, or none at
the end, together with what is left in `ec`. -/
abbrev Get (σ β : Type) := σ → Except Fault ((Option (List β × Bool) × ErrorCode) × σ)

/-- Calling `get` until it reports the end returns these buffers. -/
inductive Yields {σ β : Type} (get : Get σ β) : σ → List (List β) → Prop
  | ended {state next : σ} : get state = .ok ((none, none), next) → Yields get state []
  | last {state next : σ} {buffer : List β} :
      get state = .ok ((some (buffer, false), none), next) → Yields get state [buffer]
  | more {state next : σ} {buffer : List β} {buffers : List (List β)} :
      get state = .ok ((some (buffer, true), none), next) → Yields get next buffers →
      Yields get state (buffer :: buffers)

namespace Base64FileBody

variable {σ : Type} {bufferSize : Nat} {baseGet : Get σ UInt8} {base64Encode : Bytes → List Char}
  {state : σ}

def size (fileSize : UInt64) : UInt64 := (fileSize + 2) / 3 * 4

def get (bufferSize : Nat) (baseGet : Get σ UInt8) (base64Encode : Bytes → List Char) : Get σ Char :=
  fun state => do
    let ((ret, ec), next) ← baseGet state
    match ret with
    | none => return ((none, ec), next)
    | some (data, more) =>
        let encoded := base64Encode data
        -- The encoder writes to `buf_` without a bound.
        if encoded.length ≤ bufferSize * 2 then return ((some (encoded, more), ec), next)
        else .error .badSubscript

/-- The body sent is the encoding of the file and has the announced length. -/
def SendsEncoded (bufferSize : Nat) (baseGet : Get σ UInt8) (base64Encode : Bytes → List Char)
    (state : σ) (file : Bytes) (fileSize : UInt64) : Prop :=
  ∃ buffers, Yields (get bufferSize baseGet base64Encode) state buffers ∧
    buffers.flatten = Base64.encode file ∧ Base64.decode buffers.flatten = some file ∧
    buffers.flatten.length = (size fileSize).toNat

/-- `http::file_body::writer::get` over the rest of a file whose reads return
all they are asked for. -/
def fullReads (bufferSize : Nat) : Get Bytes UInt8 := fun remain =>
  let nread := remain.take bufferSize
  let rest := remain.drop bufferSize
  .ok (if nread.isEmpty then ((none, none), remain) else ((some (nread, !rest.isEmpty), none), rest))

theorem get_of_none {ec : ErrorCode} {next : σ} (base : baseGet state = .ok ((none, ec), next)) :
    get bufferSize baseGet base64Encode state = .ok ((none, ec), next) := by
  simp only [get, base, ok_bind, pure_eq_ok]

theorem get_of_some {data : Bytes} {more : Bool} {ec : ErrorCode} {next : σ}
    (base : baseGet state = .ok ((some (data, more), ec), next)) :
    get bufferSize baseGet base64Encode state =
      if (base64Encode data).length ≤ bufferSize * 2 then
        .ok ((some (base64Encode data, more), ec), next)
      else .error .badSubscript := by
  simp only [get, base, ok_bind, pure_eq_ok]

theorem fits_of_get {data : Bytes} {more : Bool} {ec : ErrorCode} {next after : σ}
    {got : Option (List Char × Bool) × ErrorCode}
    (base : baseGet state = .ok ((some (data, more), ec), next))
    (get : get bufferSize baseGet base64Encode state = .ok (got, after)) :
    (base64Encode data).length ≤ bufferSize * 2 ∧ got = (some (base64Encode data, more), ec) ∧
      after = next := by
  rw [get_of_some base] at get
  split at get
  · rename_i fits
    cases get
    exact ⟨fits, rfl, rfl⟩
  · contradiction

theorem yields_encoded {chunks : List Bytes} (yields : Yields baseGet state chunks)
    (fits : ∀ chunk ∈ chunks, (base64Encode chunk).length ≤ bufferSize * 2) :
    Yields (get bufferSize baseGet base64Encode) state (chunks.map base64Encode) := by
  induction yields with
  | ended base => exact .ended (get_of_none base)
  | last base => exact .last (by rw [get_of_some base, if_pos (fits _ (by simp))])
  | more base _ ih =>
      have rest := ih fun chunk member => fits chunk (by simp [member])
      exact .more (by rw [get_of_some base, if_pos (fits _ (by simp))]) rest

/-- A run of `get` encodes what the run of the file reader returns, each chunk
by itself. -/
theorem encoded_of_yields {chunks : List Bytes} {buffers : List (List Char)}
    (yields : Yields baseGet state chunks)
    (encoded : Yields (get bufferSize baseGet base64Encode) state buffers) :
    buffers = chunks.map base64Encode ∧
      ∀ chunk ∈ chunks, (base64Encode chunk).length ≤ bufferSize * 2 := by
  induction yields generalizing buffers with
  | ended base =>
      have here := @get_of_none σ bufferSize baseGet base64Encode _ _ _ base
      cases encoded with
      | ended _ => simp
      | last get | more get _ => simp [here] at get
  | last base =>
      cases encoded with
      | ended get | more get _ => cases (fits_of_get base get).2.1
      | last get =>
          obtain ⟨fits, same, -⟩ := fits_of_get base get
          cases same
          simpa using fits
  | more base _ ih =>
      cases encoded with
      | ended get | last get => cases (fits_of_get base get).2.1
      | more get rest =>
          obtain ⟨fits, same, rfl⟩ := fits_of_get base get
          cases same
          obtain ⟨rfl, others⟩ := ih rest
          simpa [fits] using others

theorem size_eq_iff {fileSize : UInt64} {file : Bytes} (sized : fileSize.toNat = file.length) :
    (Base64.encode file).length = (size fileSize).toNat ↔
      (file.length + 2) / 3 * 4 < UInt64.size := by
  have bound := fileSize.toNat_lt_size
  have computed : (size fileSize).toNat =
      (file.length + 2) % UInt64.size / 3 * 4 % UInt64.size := by
    simp [size, sized, UInt64.size]
  rw [Base64.encode_length, computed]
  rw [sized] at bound
  unfold UInt64.size at bound ⊢
  by_cases wraps : file.length + 2 < 18446744073709551616
  · rw [Nat.mod_eq_of_lt wraps]
    omega
  · have few : (file.length + 2) % 18446744073709551616 / 3 = 0 := by omega
    rw [few]
    omega

theorem fits_iff {chunks : List Bytes} (bounded : ∀ chunk ∈ chunks, chunk.length ≤ bufferSize) :
    (∀ chunk ∈ chunks, (Base64.encode chunk).length ≤ bufferSize * 2) ↔
      2 ≤ bufferSize ∨ chunks.flatten = [] := by
  rw [List.flatten_eq_nil_iff]
  by_cases large : 2 ≤ bufferSize
  · simp only [large, true_or, iff_true]
    intro chunk member
    have size := bounded chunk member
    rw [Base64.encode_length]
    omega
  · simp only [large, false_or]
    refine forall₂_congr fun chunk member => ?_
    have size := bounded chunk member
    rw [Base64.encode_length, ← List.length_eq_zero_iff]
    omega

/-- The body sent is the encoding of the file under its exact length if and
only if no padding falls inside the stream, every encoded chunk fits the
buffer, and the length does not overflow its type. -/
theorem sends_encoded_iff {chunks : List Bytes} {file : Bytes} {fileSize : UInt64}
    (rfc4648 : ∀ bytes, base64Encode bytes = Base64.encode bytes)
    (yields : Yields baseGet state chunks) (whole : chunks.flatten = file)
    (bounded : ∀ chunk ∈ chunks, chunk.length ≤ bufferSize)
    (sized : fileSize.toNat = file.length) :
    SendsEncoded bufferSize baseGet base64Encode state file fileSize ↔
      Base64.Aligned chunks ∧ (2 ≤ bufferSize ∨ file = []) ∧
        (file.length + 2) / 3 * 4 < UInt64.size := by
  obtain rfl : base64Encode = Base64.encode := funext rfc4648
  subst whole
  rw [← Base64.flatten_map_encode_iff, ← fits_iff bounded, ← size_eq_iff sized]
  constructor
  · intro sent
    obtain ⟨buffers, encoded, same, -, length⟩ := sent
    obtain ⟨rfl, fits⟩ := encoded_of_yields yields encoded
    exact ⟨same, fits, same ▸ length⟩
  · intro conditions
    obtain ⟨same, fits, length⟩ := conditions
    refine ⟨_, yields_encoded yields fits, same, ?_, same ▸ length⟩
    rw [same, Base64.decode_encode]

theorem sends_encoded_iff_two_chunks :
    let file : Bytes := [99, 104, 97, 105]
    SendsEncoded 3 (fullReads 3) Base64.encode file file 4 := by
  intro file
  have yields : Yields (fullReads 3) file [[99, 104, 97], [105]] := .more rfl (.last rfl)
  exact (sends_encoded_iff (fun _ => rfl) yields rfl (by decide) rfl).mpr (by decide)

/-- Where reads fill the buffer, chunks are cut at full groups exactly if one
buffer takes the whole file or its size is a multiple of three. -/
theorem fullReads_yields (positive : 0 < bufferSize) (file : Bytes) :
    ∃ chunks, Yields (fullReads bufferSize) file chunks ∧ chunks.flatten = file ∧
      (∀ chunk ∈ chunks, chunk.length ≤ bufferSize) ∧
      (Base64.Aligned chunks ↔ file.length ≤ bufferSize ∨ 3 ∣ bufferSize) := by
  induction counted : file.length using Nat.strong_induction_on generalizing file with
  | _ size ih =>
      by_cases empty : file = []
      · subst empty
        refine ⟨[], @Yields.ended _ _ _ _ [] (by simp [fullReads]), rfl, by simp, ?_⟩
        simp [← counted, Base64.Aligned]
      · by_cases last : file.length ≤ bufferSize
        · have rest : file.drop bufferSize = [] := List.drop_eq_nil_of_le last
          have all : file.take bufferSize = file := List.take_of_length_le last
          refine ⟨[file], @Yields.last _ _ _ _ [] _ ?_, by simp, by simpa using last, ?_⟩
          · simp [fullReads, rest, all, empty]
          · simp [Base64.Aligned, ← counted, last]
        · have shorter : (file.drop bufferSize).length < size := by
            rw [List.length_drop]
            omega
          have more : file.drop bufferSize ≠ [] := by
            rw [← List.length_pos_iff, List.length_drop]
            omega
          have full : (file.take bufferSize).length = bufferSize := by
            rw [List.length_take]
            omega
          have nonempty : file.take bufferSize ≠ [] := by
            rw [← List.length_pos_iff, full]
            exact positive
          obtain ⟨chunks, yields, whole, bounded, aligned⟩ := ih _ shorter _ rfl
          refine ⟨file.take bufferSize :: chunks, .more ?_ yields, ?_, ?_, ?_⟩
          · simp [fullReads, nonempty, more]
          · rw [List.flatten_cons, whole, List.take_append_drop]
          · simpa [full] using bounded
          · rw [Base64.Aligned, aligned, whole, full]
            simp only [more, false_or]
            omega

theorem default_buffer_pads_inside :
    let file : Bytes := List.replicate 4097 0
    ¬ SendsEncoded 4096 (fullReads 4096) Base64.encode file file 4097 := by
  intro file sent
  obtain ⟨chunks, yields, whole, -, aligned⟩ := fullReads_yields (by decide : 0 < 4096) file
  obtain ⟨buffers, encoded, same, -, -⟩ := sent
  obtain ⟨rfl, -⟩ := encoded_of_yields yields encoded
  rw [← whole, Base64.flatten_map_encode_iff, aligned, List.length_replicate] at same
  omega

end Base64FileBody

end ChaiBeast.Http
