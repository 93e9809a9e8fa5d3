import Mathlib.Algebra.Ring.Nat
import DecodePipeline.Proofs.Player.Files

/-!
This module contains what ends up in a file to which a stream is dumped. The main result is that it is
exactly what was fed until the dump was stopped, however the buffer splits it into writes, and that a
dump that has failed does nothing any more.
-/

namespace DecodePipeline

inductive DumpCall where
  | feed (packet : Packet)
  | stop
  deriving DecidableEq

namespace DumpCall

def fed : List DumpCall → List Packet
  | feed packet :: calls => packet :: fed calls
  | stop :: _ | [] => []

end DumpCall

namespace StreamDump

variable {σ : Type} [ByteSink σ]

def perform (d : StreamDump σ) : DumpCall → List Notice × StreamDump σ
  | .feed packet => d.feed packet
  | .stop => d.stop

def after (d : StreamDump σ) : List DumpCall → List Notice × StreamDump σ
  | [] => ([], d)
  | call :: calls =>
    let (said, d) := d.perform call
    let (more, d) := d.after calls
    (said ++ more, d)

def dropped (d : StreamDump σ) : List Notice × StreamDump σ := d.stop

end StreamDump

def Faultless (said : List Notice) : Prop := ∀ notice ∈ said, notice.level ≠ .error

theorem faultless_append {said more : List Notice}
    : Faultless (said ++ more) ↔ Faultless said ∧ Faultless more := List.forall_mem_append

def joined (packets : List Packet) : ByteArray :=
  packets.foldl (fun bytes packet => bytes ++ packet.payload) .empty

theorem joined_concat (packets : List Packet) (packet : Packet)
    : joined (packets ++ [packet]) = joined packets ++ packet.payload := by
  unfold joined
  rw [List.foldl_append]
  rfl

/-- Sinks with a content, behind which they put everything that is written without an error. -/
structure Appends {σ : Type} [ByteSink σ] (content : σ → ByteArray) (kept : σ → Prop) : Prop where
  write : ∀ sink bytes, kept sink → (ByteSink.write sink bytes).1 = .ok () →
    kept (ByteSink.write sink bytes).2
      ∧ content (ByteSink.write sink bytes).2 = content sink ++ bytes

def Unfailing {σ : Type} [ByteSink σ] (kept : σ → Prop) : Prop :=
  ∀ sink bytes, kept sink → (ByteSink.write sink bytes).1 = .ok ()

namespace SinkBuffer

variable {σ : Type} [ByteSink σ] {content : σ → ByteArray} {kept : σ → Prop}

def held (content : σ → ByteArray) (b : SinkBuffer σ) : ByteArray := content b.sink ++ b.waiting

theorem eq_empty_of_isEmpty {bytes : ByteArray} (hempty : bytes.isEmpty) : bytes = .empty :=
  ByteArray.size_eq_zero_iff.mp (by simpa [ByteArray.isEmpty] using hempty)

theorem flush_spec (happends : Appends content kept) {b : SinkBuffer σ} (hkept : kept b.sink)
    (hok : b.flush.1 = .ok ())
    : kept b.flush.2.sink ∧ b.flush.2.waiting = .empty
        ∧ held content b.flush.2 = held content b := by
  unfold flush at hok ⊢
  split
  . next hempty => exact ⟨hkept, eq_empty_of_isEmpty hempty, rfl⟩
  . next hwaiting =>
    rw [if_neg hwaiting] at hok
    have hwrite := happends.write b.sink b.waiting hkept
    cases hresult : ByteSink.write b.sink b.waiting with
    | mk result sink =>
      rw [hresult] at hok hwrite
      cases result with
      | error reason => cases hok
      | ok _ =>
        have hwrite := hwrite rfl
        refine ⟨hwrite.1, rfl, ?_⟩
        unfold held
        simp [hwrite.2]

theorem makeRoom_spec (happends : Appends content kept) {b : SinkBuffer σ} (hkept : kept b.sink)
    (size : Nat) (hok : (b.makeRoom size).1 = .ok ())
    : kept (b.makeRoom size).2.sink ∧ held content (b.makeRoom size).2 = held content b
        ∧ (capacity ≤ size → (b.makeRoom size).2.waiting = .empty) := by
  unfold makeRoom at hok ⊢
  split
  . next hfull =>
    rw [if_pos hfull] at hok
    have hflush := flush_spec happends hkept hok
    exact ⟨hflush.1, hflush.2.2, fun _ => hflush.2.1⟩
  . next hroom =>
    refine ⟨hkept, rfl, fun hlarge => ?_⟩
    have hwaiting : b.waiting.size = 0 := by omega
    exact ByteArray.size_eq_zero_iff.mp hwaiting

theorem append_spec (happends : Appends content kept) {b : SinkBuffer σ} (hkept : kept b.sink)
    {bytes : ByteArray} (hroom : capacity ≤ bytes.size → b.waiting = .empty)
    (hok : (b.append bytes).1 = .ok ())
    : kept (b.append bytes).2.sink
        ∧ held content (b.append bytes).2 = held content b ++ bytes := by
  unfold append at hok ⊢
  split
  . exact ⟨hkept, ByteArray.append_assoc.symm⟩
  . next hlarge =>
    rw [if_neg hlarge] at hok
    have hwrite := happends.write b.sink bytes hkept hok
    have hwaiting := hroom (by omega)
    refine ⟨hwrite.1, ?_⟩
    unfold held
    simp [hwrite.2, hwaiting]

theorem write_spec (happends : Appends content kept) {b : SinkBuffer σ} (hkept : kept b.sink)
    {bytes : ByteArray} (hok : (b.write bytes).1 = .ok ())
    : kept (b.write bytes).2.sink
        ∧ held content (b.write bytes).2 = held content b ++ bytes := by
  have hmade := makeRoom_spec happends hkept bytes.size
  unfold write at hok ⊢
  cases hroom : b.makeRoom bytes.size with
  | mk result roomy =>
    rw [hroom] at hok hmade
    cases result with
    | error reason => cases hok
    | ok _ =>
      have hmade := hmade rfl
      rw [← hmade.2.1]
      exact append_spec happends hmade.1 hmade.2.2 hok

theorem flush_ok (hworks : Unfailing kept) {b : SinkBuffer σ} (hkept : kept b.sink)
    : b.flush.1 = .ok () := by
  have hwritten := hworks b.sink b.waiting hkept
  unfold flush
  split
  . rfl
  . cases hresult : ByteSink.write b.sink b.waiting with
    | mk result sink =>
      rw [hresult] at hwritten
      subst hwritten
      rfl

theorem makeRoom_ok (hworks : Unfailing kept) {b : SinkBuffer σ} (hkept : kept b.sink) (size : Nat)
    : (b.makeRoom size).1 = .ok () := by
  unfold makeRoom
  split
  . exact flush_ok hworks hkept
  . rfl

theorem write_ok (hworks : Unfailing kept) (happends : Appends content kept) {b : SinkBuffer σ}
    (hkept : kept b.sink) (bytes : ByteArray)
    : (b.write bytes).1 = .ok () := by
  have hok := makeRoom_ok hworks hkept bytes.size
  have hmade := makeRoom_spec happends hkept bytes.size hok
  unfold write
  cases hroom : b.makeRoom bytes.size with
  | mk result roomy =>
    rw [hroom] at hok hmade
    subst hok
    show (roomy.append bytes).1 = .ok ()
    unfold append
    split
    . rfl
    . exact hworks roomy.sink bytes hmade.1

end SinkBuffer

namespace StreamDump

variable {σ : Type} [ByteSink σ] {content : σ → ByteArray} {kept : σ → Prop}

structure Records (content : σ → ByteArray) (kept : σ → Prop) (packets : List Packet)
    (d : StreamDump σ) : Prop where
  kept : kept d.buffer.sink
  held : d.buffer.held content = joined packets
  count : d.packets = packets.length
  total : d.bytes = (packets.map Packet.size).sum
  -- nothing waits any more when the dump is stopped
  flushed : d.saving = false → d.buffer.waiting = .empty

omit [ByteSink σ] in
theorem records_start {sink : σ} (hkept : kept sink) (hempty : content sink = .empty)
    (path : String)
    : Records content kept [] (start path sink).2 where
  kept := hkept
  held := by simp [start, SinkBuffer.held, joined, hempty]
  count := rfl
  total := rfl
  flushed := fun hsaving => nomatch hsaving

theorem feed_cases {d : StreamDump σ} (hsaving : d.saving) (packet : Packet)
    : (∃ buffer, d.buffer.write packet.payload = (.ok (), buffer)
        ∧ d.feed packet
          = ([], { d with buffer, packets := d.packets + 1, bytes := d.bytes + packet.size }))
      ∨ ∃ reason buffer, d.feed packet
        = ([.writeFailed d.path reason], { d with buffer, saving := false }) := by
  unfold feed
  rw [if_neg (by simp [hsaving])]
  cases hwritten : d.buffer.write packet.payload with
  | mk result buffer =>
    cases result with
    | ok _ => exact .inl ⟨buffer, rfl, rfl⟩
    | error reason => exact .inr ⟨reason, buffer.flush.2, rfl⟩

theorem stop_cases {d : StreamDump σ} (hsaving : d.saving)
    : (∃ buffer, d.buffer.flush = (.ok (), buffer)
        ∧ d.stop = ([.recorded d.packets d.bytes], { d with buffer, saving := false }))
      ∨ ∃ reason buffer, d.stop
        = ([.flushFailed d.path reason, .recorded d.packets d.bytes],
            { d with buffer, saving := false }) := by
  unfold stop
  rw [if_neg (by simp [hsaving])]
  cases hflushed : d.buffer.flush with
  | mk result buffer =>
    cases result with
    | ok _ => exact .inl ⟨buffer, rfl, rfl⟩
    | error reason => exact .inr ⟨reason, buffer.flush.2, rfl⟩

theorem feed_of_stopped {d : StreamDump σ} (hstopped : d.saving = false) (packet : Packet)
    : d.feed packet = ([], d) := by
  unfold feed
  simp [hstopped]

theorem stop_of_stopped {d : StreamDump σ} (hstopped : d.saving = false) : d.stop = ([], d) := by
  unfold stop
  simp [hstopped]

theorem stop_saving (d : StreamDump σ) : d.stop.2.saving = false := by
  cases hsaving : d.saving with
  | false => rwa [stop_of_stopped hsaving]
  | true => rcases stop_cases hsaving with ⟨_, _, hstop⟩ | ⟨_, _, hstop⟩ <;> rw [hstop]

theorem Records.feed (happends : Appends content kept) {packets : List Packet} {d : StreamDump σ}
    (hrecords : Records content kept packets d) (hsaving : d.saving) {packet : Packet}
    (hfaultless : Faultless (d.feed packet).1)
    : Records content kept (packets ++ [packet]) (d.feed packet).2
        ∧ (d.feed packet).2.saving := by
  rcases feed_cases hsaving packet with ⟨buffer, hwritten, hfeed⟩ | ⟨reason, _, hfeed⟩
  . have hwrite := SinkBuffer.write_spec happends hrecords.kept (by rw [hwritten])
    rw [hwritten] at hwrite
    rw [hfeed]
    refine ⟨⟨hwrite.1, ?_, ?_, ?_, ?_⟩, hsaving⟩
    . rw [joined_concat, ← hrecords.held]
      exact hwrite.2
    . simp [hrecords.count]
    . simp [hrecords.total]
    . intro hstopped
      cases hsaving.symm.trans hstopped
  . rw [hfeed] at hfaultless
    exact absurd rfl (hfaultless _ (List.mem_singleton.mpr rfl))

theorem Records.stop (happends : Appends content kept) {packets : List Packet} {d : StreamDump σ}
    (hrecords : Records content kept packets d) (hfaultless : Faultless d.stop.1)
    : Records content kept packets d.stop.2 := by
  cases hsaving : d.saving with
  | false => rwa [stop_of_stopped hsaving]
  | true =>
    rcases stop_cases hsaving with ⟨buffer, hflushed, hstop⟩ | ⟨reason, _, hstop⟩
    . have hflush := SinkBuffer.flush_spec happends hrecords.kept (by rw [hflushed])
      rw [hflushed] at hflush
      rw [hstop]
      exact ⟨hflush.1, hflush.2.2.trans hrecords.held, hrecords.count, hrecords.total,
        fun _ => hflush.2.1⟩
    . rw [hstop] at hfaultless
      exact absurd rfl (hfaultless _ List.mem_cons_self)

theorem after_of_stopped {d : StreamDump σ} (hstopped : d.saving = false) (calls : List DumpCall)
    : d.after calls = ([], d) := by
  induction calls with
  | nil => rfl
  | cons call calls ih =>
    unfold after
    cases call with
    | feed packet => simp [perform, feed_of_stopped hstopped, ih]
    | stop => simp [perform, stop_of_stopped hstopped, ih]

theorem feed_of_fault {d : StreamDump σ} {packet : Packet} (hfault : ¬ Faultless (d.feed packet).1)
    : (d.feed packet).2.saving = false ∧ (d.feed packet).2.packets = d.packets
        ∧ (d.feed packet).2.bytes = d.bytes := by
  cases hsaving : d.saving with
  | false =>
    rw [feed_of_stopped hsaving]
    exact ⟨hsaving, rfl, rfl⟩
  | true =>
    rcases feed_cases hsaving packet with ⟨_, _, hfeed⟩ | ⟨_, _, hfeed⟩
    . rw [hfeed] at hfault
      exact absurd (List.forall_mem_nil _) hfault
    . rw [hfeed]
      exact ⟨rfl, rfl, rfl⟩

theorem feed_path (d : StreamDump σ) (packet : Packet) : (d.feed packet).2.path = d.path := by
  cases hsaving : d.saving with
  | false => rw [feed_of_stopped hsaving]
  | true =>
    rcases feed_cases hsaving packet with ⟨_, _, hfeed⟩ | ⟨_, _, hfeed⟩ <;> rw [hfeed]

theorem stop_path (d : StreamDump σ) : d.stop.2.path = d.path := by
  cases hsaving : d.saving with
  | false => rw [stop_of_stopped hsaving]
  | true => rcases stop_cases hsaving with ⟨_, _, hstop⟩ | ⟨_, _, hstop⟩ <;> rw [hstop]

theorem after_path (d : StreamDump σ) (calls : List DumpCall) : (d.after calls).2.path = d.path := by
  induction calls generalizing d with
  | nil => rfl
  | cons call calls ih =>
    unfold after
    rw [ih]
    cases call with
    | feed packet => exact feed_path d packet
    | stop => exact stop_path d

theorem Records.after (happends : Appends content kept) {packets : List Packet} {d : StreamDump σ}
    (hrecords : Records content kept packets d) (hsaving : d.saving) {calls : List DumpCall}
    (hfaultless : Faultless (d.after calls).1)
    : Records content kept (packets ++ DumpCall.fed calls) (d.after calls).2
        ∧ ((d.after calls).2.saving ↔ .stop ∉ calls) := by
  induction calls generalizing packets d with
  | nil => simpa [StreamDump.after, DumpCall.fed] using ⟨hrecords, hsaving⟩
  | cons call calls ih =>
    unfold StreamDump.after at hfaultless ⊢
    have hfaultless := faultless_append.mp hfaultless
    cases call with
    | feed packet =>
      have hfed := hrecords.feed happends hsaving hfaultless.1
      have hafter := ih hfed.1 hfed.2 hfaultless.2
      simpa [DumpCall.fed, perform] using hafter
    | stop =>
      have hstopped := stop_saving d
      have hrecords := hrecords.stop happends hfaultless.1
      simpa [DumpCall.fed, perform, after_of_stopped hstopped, hstopped] using hrecords

theorem Records.dropped (happends : Appends content kept) {packets : List Packet} {d : StreamDump σ}
    (hrecords : Records content kept packets d) (hfaultless : Faultless d.dropped.1)
    : Records content kept packets d.dropped.2
        ∧ content d.dropped.2.buffer.sink = joined packets := by
  have hdropped := hrecords.stop happends hfaultless
  have hwaiting := hdropped.flushed (stop_saving d)
  refine ⟨hdropped, ?_⟩
  rw [← hdropped.held, SinkBuffer.held, hwaiting, ByteArray.append_empty]
  rfl

/-! A sink that takes everything keeps a dump from failing. -/

theorem Records.feed_faultless (hworks : Unfailing kept) (happends : Appends content kept)
    {packets : List Packet} {d : StreamDump σ} (hrecords : Records content kept packets d)
    (packet : Packet)
    : Faultless (d.feed packet).1 := by
  have hwritten := SinkBuffer.write_ok hworks happends hrecords.kept packet.payload
  unfold StreamDump.feed
  split
  . exact List.forall_mem_nil _
  . cases hresult : d.buffer.write packet.payload with
    | mk result buffer =>
      rw [hresult] at hwritten
      subst hwritten
      exact List.forall_mem_nil _

theorem Records.stop_faultless (hworks : Unfailing kept) {packets : List Packet} {d : StreamDump σ}
    (hrecords : Records content kept packets d)
    : Faultless d.stop.1 := by
  have hflushed := SinkBuffer.flush_ok hworks hrecords.kept
  unfold StreamDump.stop
  split
  . exact List.forall_mem_nil _
  . cases hresult : d.buffer.flush with
    | mk result buffer =>
      rw [hresult] at hflushed
      subst hflushed
      exact List.forall_mem_singleton.mpr nofun

theorem Records.after_faultless (hworks : Unfailing kept) (happends : Appends content kept)
    {packets : List Packet} {d : StreamDump σ} (hrecords : Records content kept packets d)
    (hsaving : d.saving) (calls : List DumpCall)
    : Faultless (d.after calls).1 := by
  induction calls generalizing packets d with
  | nil => exact List.forall_mem_nil _
  | cons call calls ih =>
    refine faultless_append.mpr ?_
    cases call with
    | feed packet =>
      have hfaultless := hrecords.feed_faultless hworks happends packet
      have hfed := hrecords.feed happends hsaving hfaultless
      exact ⟨hfaultless, ih hfed.1 hfed.2⟩
    | stop =>
      refine ⟨hrecords.stop_faultless hworks, ?_⟩
      show Faultless (d.stop.2.after calls).1
      rw [after_of_stopped (stop_saving d)]
      exact List.forall_mem_nil _

end StreamDump

namespace MemorySink

def IsFile (sink : MemorySink) : Prop := ∃ pieces, sink = .file pieces

theorem appends_file : Appends content IsFile where
  write := by
    rintro _ bytes ⟨pieces, rfl⟩ _
    exact ⟨⟨bytes :: pieces, rfl⟩, rfl⟩

theorem unfailing_file : Unfailing IsFile := by
  rintro _ bytes ⟨pieces, rfl⟩
  rfl

end MemorySink

namespace StreamDump

theorem dropped_in_file {fs : MemoryFiles} {path : String} {place : FilePlace}
    (htarget : fs.target path = .ok place)
    (hfile : fs.node? place = none ∨ ∃ old, fs.node? place = some (.file old))
    (calls : List DumpCall)
    : let run := (start path (MemorySink.file [])).2.after calls
      Faultless (run.1 ++ run.2.dropped.1)
        ∧ ((fs.create path).2.save run.2.dropped.2).node? place
          = some (.file (joined (DumpCall.fed calls))) := by
  intro run
  have hkept : MemorySink.IsFile (.file []) := ⟨[], rfl⟩
  have hempty : MemorySink.content (.file []) = .empty := rfl
  have hstart := records_start hkept hempty path
  have hsaid := hstart.after_faultless MemorySink.unfailing_file MemorySink.appends_file rfl calls
  have hrun := (hstart.after MemorySink.appends_file rfl hsaid).1
  have hlast := hrun.stop_faultless MemorySink.unfailing_file
  have hdropped := hrun.dropped MemorySink.appends_file hlast
  refine ⟨faultless_append.mpr ⟨hsaid, hlast⟩, ?_⟩
  rcases hdropped.1.kept with ⟨pieces, hpieces⟩
  have hpath : run.2.dropped.2.path = path := (stop_path _).trans (after_path _ calls)
  have hnowhere := MemoryFiles.isDirectory_of_file hfile
  rw [MemoryFiles.create_of_file htarget hfile,
    MemoryFiles.node?_save hpieces (by rw [hpath]; exact MemoryFiles.target_put hnowhere htarget)]
  exact congrArg (fun content => some (FileNode.file content)) hdropped.2

/--
As long as nothing fails, a dump counts what it is fed until it is stopped, and this is what is in its
sink when it is dropped. The first failure ends it for good. A file in memory never fails, so it is
replaced by what was fed.
-/
theorem dumps_what_was_fed {σ : Type} [ByteSink σ] (path : String) (sink : σ)
    (calls : List DumpCall)
    : let run := (start path sink).2.after calls
      (∀ (content : σ → ByteArray) (kept : σ → Prop), Appends content kept → kept sink →
        content sink = .empty →
        (Faultless run.1 → run.2.packets = (DumpCall.fed calls).length
          ∧ run.2.bytes = ((DumpCall.fed calls).map Packet.size).sum
          ∧ (run.2.saving ↔ .stop ∉ calls))
        ∧ (Faultless (run.1 ++ run.2.dropped.1) →
          content run.2.dropped.2.buffer.sink = joined (DumpCall.fed calls)))
      ∧ (∀ packet, ¬ Faultless (run.2.feed packet).1 →
        let failed := (run.2.feed packet).2
        failed.saving = false ∧ failed.packets = run.2.packets ∧ failed.bytes = run.2.bytes
          ∧ (∀ later, failed.after later = ([], failed)) ∧ failed.dropped = ([], failed))
      ∧ ∀ (fs : MemoryFiles) (place : FilePlace), fs.target path = .ok place →
        (fs.node? place = none ∨ ∃ old, fs.node? place = some (.file old)) →
        (fs.create path).1 = .ok (.file [])
        ∧ let run := (start path (MemorySink.file [])).2.after calls
          Faultless (run.1 ++ run.2.dropped.1)
            ∧ ((fs.create path).2.save run.2.dropped.2).node? place
              = some (.file (joined (DumpCall.fed calls))) := by
  intro run
  refine ⟨?_, ?_, ?_⟩
  . intro content kept happends hkept hempty
    have hstart := records_start hkept hempty path
    constructor
    . intro hsaid
      have hrun := hstart.after happends rfl hsaid
      exact ⟨hrun.1.count, hrun.1.total, hrun.2⟩
    . intro hfaultless
      rcases faultless_append.mp hfaultless with ⟨hsaid, hlast⟩
      have hrun := hstart.after happends rfl hsaid
      exact (hrun.1.dropped happends hlast).2
  . intro packet hfault
    have hfailed := feed_of_fault hfault
    exact ⟨hfailed.1, hfailed.2.1, hfailed.2.2, after_of_stopped hfailed.1,
      stop_of_stopped hfailed.1⟩
  . intro fs place htarget hfile
    exact ⟨by rw [MemoryFiles.create_of_file htarget hfile],
      dropped_in_file htarget hfile calls⟩

def sampleFiles : MemoryFiles := .ofTexts [("out.bin", "old content")]

def samplePlace : FilePlace := ["out.bin", "working directory", "tmp"]

def sampleCalls : List DumpCall :=
  [.feed { payload := ⟨#[1, 2]⟩ }, .feed { payload := ⟨#[3]⟩ }, .stop, .feed { payload := ⟨#[4]⟩ }]

def hugePacket : Packet := { payload := ⟨Array.replicate SinkBuffer.capacity 0⟩ }

def sampleRun : List Notice × StreamDump MemorySink :=
  (start "out.bin" (.file [])).2.after sampleCalls

def sampleFailed : List Notice × StreamDump MemorySink :=
  ((start "out.bin" .full).2.after []).2.feed hugePacket

theorem sample_dumps_what_was_fed
    : sampleRun.2.packets = 2 ∧ sampleRun.2.bytes = 3 ∧ sampleRun.2.saving = false
        ∧ sampleRun.2.dropped.2.buffer.sink.content = ⟨#[1, 2, 3]⟩
        ∧ ((sampleFiles.create "out.bin").2.save sampleRun.2.dropped.2).node? samplePlace
          = some (.file ⟨#[1, 2, 3]⟩)
        ∧ sampleFailed.2.saving = false ∧ sampleFailed.2.packets = 0
        ∧ sampleFailed.2.after sampleCalls = ([], sampleFailed.2) := by
  have hfull : ¬ Faultless sampleFailed.1 := fun h =>
    h (.writeFailed "out.bin" "No space left on device (os error 28)") (by decide +kernel) rfl
  have hrun := dumps_what_was_fed "out.bin" (MemorySink.file []) sampleCalls
  have hdumped := hrun.1 _ _ MemorySink.appends_file ⟨[], rfl⟩ rfl
  have hsaved := (hrun.2.2 sampleFiles samplePlace rfl (.inr ⟨"old content".toUTF8, by rfl⟩)).2
  have hcounted := hdumped.1 (faultless_append.mp hsaved.1).1
  have hfailed := (dumps_what_was_fed "out.bin" MemorySink.full []).2.1 hugePacket hfull
  have hstopped : DumpCall.stop ∈ sampleCalls := by simp [sampleCalls]
  unfold sampleFailed
  exact ⟨hcounted.1, hcounted.2.1, Bool.eq_false_iff.mpr fun hsaving =>
    hcounted.2.2.mp hsaving hstopped, hdumped.2 hsaved.1, hsaved.2, hfailed.1, hfailed.2.1,
    hfailed.2.2.2.1 sampleCalls⟩

end StreamDump
end DecodePipeline
