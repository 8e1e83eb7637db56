import Sski.Wire.Pcbs

/-!
Packages: an operation code, a size and the data, as they go over a connection, and the two
messages that are made of instructions: the program a console sends to the kernel, and the
process control block a CPU sends back, with the time behind it.

A connection is the bytes that are still to come before the other side closes it.
-/

namespace Sski.Wire.Packages

open Sski.Lib.Block Sski.Lib.Cursor Sski.Wire.Instructions Sski.Wire.Pcbs
open Sski.Mem.MemoryModule (malloc length_malloc)

/-- `CMD` and `INOUT` of `opcode_t`. -/
def cmd : UInt32 := 4
def inOut : UInt32 := 5

/-- `package_t`, with the buffer in it, whose size is an `int`. -/
structure Package where
  opcode : UInt32
  size : Int32
  stream : List UInt8

/-- An `int` as a `size_t`. -/
def asSize (size : Int32) : ℕ := (size.toInt % 2 ^ 64).toNat

/-! ### Sending -/

/-- `buffer_create`; there is no block for a size that is negative as an `int`. -/
def bufferCreate (heap : ℕ → UInt8) (size : ℕ) : Int32 × Option (List UInt8) :=
  let size := Int32.ofNat size
  (size, if size.toInt < 0 then none else some (malloc heap (asSize size)))

/-- `new_buffer`, which copies the whole size, whatever was made of it. -/
def newBuffer (heap : ℕ → UInt8) (size : ℕ) (stream : List UInt8) :
    Option (Int32 × List UInt8) := do
  let (bufferSize, block) := bufferCreate heap size
  let block ← poke (← block) 0 (← peek stream 0 size)
  return (bufferSize, block)

def newPackageFor (heap : ℕ → UInt8) (opcode : UInt32) (size : ℕ) (stream : List UInt8) :
    Option Package := do
  let (bufferSize, block) ← newBuffer heap size stream
  return ⟨opcode, bufferSize, block⟩

def packageGetRealSize (package : Package) : ℕ := (asSize package.size + 4 + 4) % 2 ^ 64

def packageSerialize (heap : ℕ → UInt8) (package : Package) : Option (List UInt8) := do
  let stream := start (malloc heap (packageGetRealSize package))
  let stream ← put 64 stream (bytesOf package.opcode)
  let stream ← put 64 stream (bytesOf package.size.toUInt32)
  let stream ← put 64 stream (← peek package.stream 0 (asSize package.size))
  return stream.block

/-- `enviar_stream`: the bytes that are sent. -/
def enviarStream (heap : Heap) (opcode : UInt32) (str : List UInt8) (size : ℕ) :
    Option (List UInt8) := do
  let package ← newPackageFor (heap 0) opcode size str
  let stream ← packageSerialize (heap 1) package
  peek stream 0 (packageGetRealSize package)

/-- The size `on_send_instructions` computes. -/
def onSendSize (instructions : List Instruction) : ℕ :=
  ((listSize instructions % 2 ^ 64).toNat * instructionSize + 4) % 2 ^ 64

/-- `on_send_instructions`, over a connection that is open. -/
def onSendInstructions (heap heap' : Heap) (instructions : List Instruction) :
    Option (List UInt8) := do
  let stream ← instructionsFold heap instructions
  enviarStream heap' cmd stream (onSendSize instructions)

/-- `return_pcb`: what it sends, if anything. -/
def returnPcb (heap heap' : Heap) (fd : ℤ) (pcb : Option Pcb) (time : UInt32) :
    Option (List UInt8) :=
  if fd < 0 then some []
  else
    match pcb with
    | none => some []
    | some pcb => do
      let pcbSize := pcbBytesSize pcb
      let stream := malloc (heap' 2) ((pcbSize + 4) % 2 ^ 64)
      let pcbStream ← pcbToStream heap pcb
      let stream ← poke stream 0 (← peek pcbStream 0 pcbSize)
      let stream ← poke stream pcbSize (bytesOf time)
      enviarStream heap' inOut stream ((pcbSize + 4) % 2 ^ 64)

/-! ### Receiving -/

/-- `conexion_recibir_stream`: the stream, if there is one, with the number of bytes, and what is
left on the connection. A stream that was cut short ends in what the block held before. -/
def conexionRecibirStream (heap : ℕ → UInt8) (connection : List UInt8) :
    Option (List UInt8 × ℕ) × List UInt8 :=
  let connection := connection.drop 4
  let size := bytesWord (connection.take 4)
  let connection := connection.drop 4
  if size = 0 then (none, connection)
  else
    ((poke (malloc heap size) 0 (connection.take size)).map fun stream => (stream, size + 2 * 4),
      connection.drop size)

/-- `cpu_controller_receive_pcb`; without a stream it reads from the null pointer. -/
def cpuControllerReceivePcb (heap : ℕ → UInt8) (block : Pcb) (connection : List UInt8) :
    Option ((Pcb × UInt32) × List UInt8) := do
  let (received, connection) := conexionRecibirStream heap connection
  let (stream, _) ← received
  let recoveredPcb ← pcbFromStream block stream
  let ioTime ← peek stream (pcbBytesSize recoveredPcb) 4
  return ((recoveredPcb, wordOf ioTime), connection)

/-! ### Frames -/

variable {d rest : List UInt8}

def frame (opcode : UInt32) (d : List UInt8) : List UInt8 :=
  bytesOf opcode ++ wordBytes d.length ++ d

lemma peek_all (d : List UInt8) : peek d 0 d.length = some d := by simp [peek]

lemma poke_all (heap : ℕ → UInt8) (d : List UInt8) : poke (malloc heap d.length) 0 d = some d := by
  simp [poke]

lemma asSize_ofNat {n : ℕ} (h : n < 2 ^ 31) : asSize (Int32.ofNat n) = n := by
  rw [asSize, Int32.toInt_ofNat_of_lt h]
  omega

lemma newBuffer_eq (heap : ℕ → UInt8) (hd : d.length < 2 ^ 31) :
    newBuffer heap d.length d = some (Int32.ofNat d.length, d) := by
  have hpos : ¬ (Int32.ofNat d.length).toInt < 0 := by
    rw [Int32.toInt_ofNat_of_lt hd]
    omega
  simp only [newBuffer, bufferCreate, if_neg hpos, asSize_ofNat hd, peek_all, poke_all,
    Option.bind_eq_bind, Option.bind_some, Option.pure_def]

/-- What is made of a size from 2^31 on is negative or too small. -/
lemma newBuffer_none (heap : ℕ → UInt8) {size : ℕ} (stream : List UInt8) (hsize : 2 ^ 31 ≤ size) :
    newBuffer heap size stream = none := by
  simp only [newBuffer, bufferCreate]
  split
  · rfl
  next hpos =>
    cases hpeek : peek stream 0 size with
    | none => rfl
    | some d =>
      have hlen := length_of_peek hpeek
      have hlt := (Int32.ofNat size).toInt_lt
      have hsmall : asSize (Int32.ofNat size) < size := by
        rw [asSize]
        omega
      have hout : poke (malloc heap (asSize (Int32.ofNat size))) 0 d = none := by
        rw [poke, length_malloc, if_neg (by omega)]
      simp only [Option.bind_eq_bind, Option.bind_some, hout, Option.bind_none]

lemma enviarStream_eq (heap : Heap) (opcode : UInt32) (hd : d.length < 2 ^ 31) :
    enviarStream heap opcode d d.length = some (frame opcode d) := by
  have hreal : packageGetRealSize ⟨opcode, Int32.ofNat d.length, d⟩ = d.length + 8 := by
    rw [packageGetRealSize, asSize_ofNat hd]
    omega
  have hsize : bytesOf (Int32.ofNat d.length).toUInt32 = wordBytes d.length := by
    rw [Int32.toUInt32_ofNat', bytesOf, UInt32.toNat_ofNat_of_lt' (by change _ < 2 ^ 32; omega)]
  have hfit : d.length + 8 < 2 ^ 64 := by omega
  have h0 := filled_start (malloc (heap 1) (d.length + 8))
  rw [length_malloc] at h0
  obtain ⟨k1, hp1, h1⟩ := h0.put (w := 64) (e := bytesOf opcode) (by simp) hfit
  obtain ⟨k2, hp2, h2⟩ := h1.put (w := 64) (e := wordBytes d.length) (by simp) hfit
  obtain ⟨k3, hp3, h3⟩ := h2.put (w := 64) (e := d) (by simp; omega) hfit
  have hblock : k3.block = frame opcode d := h3.block_eq (by simp; omega)
  have hlen : (frame opcode d).length = d.length + 8 := by simp [frame]; omega
  simp only [enviarStream, newPackageFor, newBuffer_eq (heap 0) hd, packageSerialize, peek_all,
    asSize_ofNat hd, hreal, hsize, hp1, hp2, hp3, Option.bind_eq_bind, Option.bind_some,
    Option.pure_def, hblock]
  rw [← hlen, peek_all]

/-- Nothing is sent of what an `int` cannot count. -/
lemma enviarStream_none (heap : Heap) (opcode : UInt32) {size : ℕ} (stream : List UInt8)
    (hsize : 2 ^ 31 ≤ size) : enviarStream heap opcode stream size = none := by
  simp only [enviarStream, newPackageFor, newBuffer_none (heap 0) stream hsize,
    Option.bind_eq_bind, Option.bind_none]

/-- So a stream is sent just when its size is an `int`. -/
lemma enviarStream_isSome (heap : Heap) (opcode : UInt32) (d : List UInt8) :
    (enviarStream heap opcode d d.length).isSome ↔ d.length < 2 ^ 31 := by
  rcases Nat.lt_or_ge d.length (2 ^ 31) with hd | hd
  · exact iff_of_true (by rw [enviarStream_eq heap opcode hd]; rfl) hd
  · exact iff_of_false (by rw [enviarStream_none heap opcode d hd]; simp) (Nat.not_lt.mpr hd)

/-- What was sent as one package is received as one, and nothing behind it is touched. -/
lemma conexionRecibirStream_frame (heap : ℕ → UInt8) (opcode : UInt32) (rest : List UInt8)
    (h0 : 0 < d.length) (hd : d.length < 2 ^ 32) :
    conexionRecibirStream heap (frame opcode d ++ rest) = (some (d, d.length + 8), rest) := by
  have hdrop : (frame opcode d ++ rest).drop 4 = wordBytes d.length ++ (d ++ rest) := by
    rw [frame, List.append_assoc, List.append_assoc]
    exact List.drop_left' (length_bytesOf _)
  have hdrop' : (wordBytes d.length ++ (d ++ rest)).drop 4 = d ++ rest :=
    List.drop_left' (length_wordBytes _)
  have hsize : bytesWord ((wordBytes d.length ++ (d ++ rest)).take 4) = d.length := by
    have htake : (wordBytes d.length ++ (d ++ rest)).take 4 = wordBytes d.length :=
      List.take_left' (length_wordBytes _)
    rw [htake, bytesWord_wordBytes, Nat.mod_eq_of_lt hd]
  simp only [conexionRecibirStream, hdrop, hdrop', hsize, if_neg h0.ne', List.take_left, poke_all,
    List.drop_left, Option.map_some]

/-! ### Programs -/

lemma onSendSize_eq {l : List Instruction} (h : l.length < 2 ^ 31) :
    onSendSize l = 4 + instructionSize * l.length := by
  rw [onSendSize, listSize_eq h]
  simp only [instructionSize]
  omega

/-- A console sends a program just when the size of its bytes is an `int`. -/
theorem onSendInstructions_isSome_iff (heap heap' : Heap) {l : List Instruction}
    (hl : l.length < 2 ^ 31) :
    (onSendInstructions heap heap' l).isSome ↔ 4 + instructionSize * l.length < 2 ^ 31 := by
  rcases Nat.lt_or_ge (4 + instructionSize * l.length) (2 ^ 31) with hsize | hsize
  · have hlen := length_encodeList l
    refine iff_of_true ?_ hsize
    rw [onSendInstructions, instructionsFold_eq heap (by omega), onSendSize_eq hl, ← hlen]
    exact (enviarStream_isSome heap' cmd _).mpr (by omega)
  · refine iff_of_false (fun hsome => ?_) (Nat.not_lt.mpr hsize)
    obtain ⟨bytes, hbytes⟩ := Option.isSome_iff_exists.mp hsome
    obtain ⟨stream, -, hsent⟩ := Option.bind_eq_some_iff.mp hbytes
    rw [onSendSize_eq hl, enviarStream_none heap' cmd stream hsize] at hsent
    cases hsent

/-- **Main result.** A list of instructions arrives as it was, whichever of the two encoders
wrote it, and the size a console sends it with is the number of bytes of the fold. -/
theorem instructionListFrom_fold (l : List Instruction) (hlen : 4 + 12 * l.length < 2 ^ 31) :
    ∃ stream, (∀ heap, instructionsFold heap l = some stream) ∧
      instructionListFrom stream = some l ∧ stream.length = onSendSize l ∧
      (∀ heap heap', onSendInstructions heap heap' l = some (frame cmd stream)) ∧
      ∀ heap p, p.instructions = l →
        ∃ front, front.length = 24 ∧ pcbToStream heap p = some (front ++ stream) := by
  have hl : l.length < 2 ^ 31 := by omega
  have hsize : (encodeList l).length = onSendSize l := by rw [onSendSize_eq hl, length_encodeList]
  have hfold : ∀ heap, instructionsFold heap l = some (encodeList l) := fun heap =>
    instructionsFold_eq heap (by rw [instructionSize]; omega)
  have hbytes : (encodeList l).length < 2 ^ 31 := by
    rw [length_encodeList, instructionSize]
    exact hlen
  have hdec : instructionListFrom (encodeList l ++ []) = some l :=
    instructionListFrom_eq (by omega) (by rw [List.append_nil]; omega)
  refine ⟨encodeList l, hfold, by rwa [List.append_nil] at hdec, hsize, fun heap heap' => ?_,
    fun heap p hp => ⟨header p, length_header p, ?_⟩⟩
  · rw [onSendInstructions, hfold, ← hsize]
    exact enviarStream_eq heap' cmd hbytes
  · subst hp
    exact pcbToStream_eq heap hl

def copyThenIo : List Instruction := [⟨5, 4, 8⟩, ⟨4, 300, 0⟩]

theorem instructionListFrom_fold_copyThenIo :
    ∃ stream, (∀ heap, instructionsFold heap copyThenIo = some stream) ∧
      instructionListFrom stream = some copyThenIo ∧ stream.length = onSendSize copyThenIo ∧
      (∀ heap heap', onSendInstructions heap heap' copyThenIo = some (frame cmd stream)) ∧
      ∀ heap p, p.instructions = copyThenIo →
        ∃ front, front.length = 24 ∧ pcbToStream heap p = some (front ++ stream) :=
  instructionListFrom_fold copyThenIo (by decide)

/-! ### Process control blocks that come back -/

lemma poke_two {block d e : List UInt8} (h : block.length = (d ++ e).length) :
    ((poke block 0 d).bind fun b => poke b d.length e) = some (d ++ e) := by
  rw [List.length_append] at h
  have h1 : poke block 0 d = some (d ++ block.drop d.length) :=
    poke_eq_some_iff.mpr ⟨by omega, by simp⟩
  rw [h1, Option.bind_some, poke_eq_some_iff]
  refine ⟨by simp; omega, ?_⟩
  have hout : (d ++ block.drop d.length).drop (d.length + e.length) = [] :=
    List.drop_eq_nil_of_le (by simp; omega)
  rw [List.take_left, hout, List.append_nil]

lemma returnPcb_eq (heap heap' : Heap) {fd : ℤ} (hfd : 0 ≤ fd) {p : Pcb} (time : UInt32)
    (hsent : 28 + 12 * p.instructions.length + 4 < 2 ^ 31) :
    returnPcb heap heap' fd (some p) time =
      some (frame inOut (encodePcb p ++ bytesOf time)) := by
  have hlen : p.instructions.length < 2 ^ 31 := by omega
  have hsize : pcbBytesSize p = (encodePcb p).length := by
    rw [pcbBytesSize_eq hlen, length_encodePcb]
  have hsmall : (encodePcb p).length + 4 < 2 ^ 31 := by
    rw [length_encodePcb, instructionSize]
    exact hsent
  have hmod : ((encodePcb p).length + 4) % 2 ^ 64 = (encodePcb p ++ bytesOf time).length := by
    rw [List.length_append, length_bytesOf]
    omega
  have hfill := poke_two (length_malloc (heap' 2) (encodePcb p ++ bytesOf time).length)
  rw [Option.bind_eq_some_iff] at hfill
  obtain ⟨stream, h1, h2⟩ := hfill
  have hsent := enviarStream_eq heap' inOut (d := encodePcb p ++ bytesOf time) (by
    rw [List.length_append, length_bytesOf]
    exact hsmall)
  rw [returnPcb, if_neg (by omega)]
  simp only [hsize, hmod, pcbToStream_eq heap hlen, peek_all, h1, h2, Option.bind_eq_bind,
    Option.bind_some, hsent]

/-- **Main result.** What a CPU sends back is what the kernel receives: the block, apart from its
size, and the time behind it, at the place the size of the recovered block gives. -/
theorem receivePcb_returnPcb (p : Pcb) (time : UInt32)
    (hlen : 28 + 12 * p.instructions.length + 4 < 2 ^ 31) :
    ∃ stream message, (∀ heap, pcbToStream heap p = some stream) ∧
      stream.length = pcbBytesSize p ∧
      (∀ heap heap' fd, 0 ≤ fd → returnPcb heap heap' fd (some p) time = some message) ∧
      ∀ heap block rest,
        (∃ q, cpuControllerReceivePcb heap block (message ++ rest) = some ((q, time), rest) ∧
          q.id = p.id ∧ q.status = p.status ∧ q.estimation = p.estimation ∧ q.pc = p.pc ∧
          q.pageTable = p.pageTable ∧ q.instructions = p.instructions ∧
          pcbBytesSize q = pcbBytesSize p) ∧
        ∀ k, (pcbFromStream block (stream.take k)).isSome ↔ pcbBytesSize p ≤ k := by
  have hl : p.instructions.length < 2 ^ 31 := by omega
  have hbytes : (encodePcb p).length + 4 < 2 ^ 31 := by
    rw [length_encodePcb, instructionSize]
    exact hlen
  have hsize : (encodePcb p).length = pcbBytesSize p := by
    rw [pcbBytesSize_eq hl, length_encodePcb]
  refine ⟨encodePcb p, _, fun heap => pcbToStream_eq heap hl, hsize,
    fun heap heap' fd hfd => returnPcb_eq heap heap' hfd time hlen, fun heap block rest =>
      ⟨?_, fun k => ⟨fun hk => ?_, fun hk => ?_⟩⟩⟩
  · -- the message is received
    have htotal : (encodePcb p ++ bytesOf time).length = (encodePcb p).length + 4 := by
      rw [List.length_append, length_bytesOf]
    have hrecv := conexionRecibirStream_frame heap inOut rest (d := encodePcb p ++ bytesOf time)
      (by omega) (by omega)
    have hdec := pcbFromStream_eq block (bytesOf time) hl (by omega)
    have hpeek : peek (encodePcb p ++ bytesOf time) (pcbBytesSize p) 4 = some (bytesOf time) := by
      rw [← hsize, peek_eq_some_iff, htotal]
      refine ⟨le_rfl, ?_⟩
      rw [List.drop_left]
      rfl
    set q : Pcb := { p with size := setLow block.size (wordBytes p.size.toNat), io := block.io,
                            real := block.real }
    -- the size of the recovered block is that of the one that was sent
    have hq : pcbBytesSize q = pcbBytesSize p := pcbBytesSize_congr rfl
    refine ⟨q, ?_, rfl, rfl, rfl, rfl, rfl, rfl, hq⟩
    rw [cpuControllerReceivePcb, hrecv]
    simp only [Option.bind_eq_bind, Option.bind_some, hdec, hq, hpeek, wordOf_bytesOf,
      Option.pure_def]
  · obtain ⟨q, hq⟩ := Option.isSome_iff_exists.mp hk
    rw [← hsize]
    exact length_of_pcbFromStream (by omega) hl hq
  · rw [List.take_of_length_le (by omega)]
    have hdec := pcbFromStream_eq block [] hl (by rw [List.append_nil]; omega)
    rw [List.append_nil] at hdec
    rw [hdec]
    rfl

theorem receivePcb_smallPcb : ∃ stream message,
    (∀ heap, pcbToStream heap smallPcb = some stream) ∧ stream.length = pcbBytesSize smallPcb ∧
      (∀ heap heap' fd, 0 ≤ fd → returnPcb heap heap' fd (some smallPcb) 7 = some message) ∧
      ∀ heap block rest,
        (∃ q, cpuControllerReceivePcb heap block (message ++ rest) = some ((q, 7), rest) ∧
          q.id = smallPcb.id ∧ q.status = smallPcb.status ∧ q.estimation = smallPcb.estimation ∧
          q.pc = smallPcb.pc ∧ q.pageTable = smallPcb.pageTable ∧
          q.instructions = smallPcb.instructions ∧ pcbBytesSize q = pcbBytesSize smallPcb) ∧
        ∀ k, (pcbFromStream block (stream.take k)).isSome ↔ pcbBytesSize smallPcb ≤ k :=
  receivePcb_returnPcb smallPcb 7 (by decide)

end Sski.Wire.Packages
