import MpcRegistry.Scanner.Instream

/-!
# The frames of a scan and its verdict

The source never looks at `terminated` before it takes a verdict. So a peer that answers and hangs
up early has a file accepted that it was not sent.
-/
namespace MpcRegistry.Scanner
open Library
open Utf16 (decodeUtf8)

section Payloads

variable (bytes : List UInt8) (options : ScannerOptions)

def frameCount : Nat := (bytes.length + options.chunkBytes - 1) / options.chunkBytes

def payloadAt (k : Nat) : List UInt8 := (bytes.drop (k * options.chunkBytes)).take options.chunkBytes

/-- The parts of the file, in the order of their offsets. -/
def payloads : List (List UInt8) := (List.range (frameCount bytes options)).map (payloadAt bytes options)

variable {bytes options} {k : Nat}

theorem lt_frameCount : k < frameCount bytes options ↔ k * options.chunkBytes < bytes.length := by
  have hpositive := options.positive
  unfold frameCount
  rw [Nat.lt_iff_add_one_le, Nat.le_div_iff_mul_le hpositive, Nat.add_one_mul]
  omega

theorem length_payloads : (payloads bytes options).length = frameCount bytes options := by
  simp [payloads]

theorem take_payloads_succ (h : k < frameCount bytes options) :
    (payloads bytes options).take (k + 1) =
      (payloads bytes options).take k ++ [payloadAt bytes options k] := by
  have hlength : k < (payloads bytes options).length := by rwa [length_payloads]
  rw [List.take_add_one, List.getElem?_eq_getElem hlength]
  simp [payloads]

/-- The first payloads are the first bytes. -/
theorem flatten_take_payloads (h : k ≤ frameCount bytes options) :
    ((payloads bytes options).take k).flatten = bytes.take (k * options.chunkBytes) := by
  induction k with
  | zero => simp
  | succ k ih =>
    rw [take_payloads_succ h, List.flatten_append, ih (by omega), Nat.add_one_mul, List.take_add]
    simp [payloadAt]

theorem flatten_payloads : (payloads bytes options).flatten = bytes := by
  have hall : bytes.length ≤ frameCount bytes options * options.chunkBytes :=
    Nat.le_of_not_lt fun h => Nat.lt_irrefl _ (lt_frameCount.mpr h)
  have hflatten := flatten_take_payloads (Nat.le_refl (frameCount bytes options))
  rwa [← length_payloads, List.take_length, length_payloads, List.take_of_length_le hall]
    at hflatten

theorem payload_ne_nil {payload : List UInt8} (h : payload ∈ payloads bytes options) :
    payload ≠ [] := by
  obtain ⟨k, hk, rfl⟩ := List.mem_map.mp h
  have hlt := lt_frameCount.mp (List.mem_range.mp hk)
  have hpositive := options.positive
  intro hnil
  have hlength := congrArg List.length hnil
  simp only [payloadAt, List.length_take, List.length_drop, List.length_nil] at hlength
  omega

/-- A frame's header is the length of its payload. -/
theorem header_frame {payload : List UInt8} (hsize : bytes.length ≤ maxScanBytes)
    (h : payload ∈ payloads bytes options) :
    BigEndian.value ((frame payload).take 4) = payload.length := by
  have hlength : payload.length ≤ bytes.length := by
    obtain ⟨k, -, rfl⟩ := List.mem_map.mp h
    simp only [payloadAt, List.length_take, List.length_drop]
    omega
  have hheader : (frame payload).take 4 = BigEndian.bytes 4 payload.length := by
    rw [frame, List.take_append_of_le_length (by simp), List.take_of_length_le (by simp)]
  rw [hheader, BigEndian.value_bytes_of_lt]
  unfold maxScanBytes at hsize
  omega

end Payloads

/-! ## The writes -/

section Writes

variable (bytes : List UInt8) (options : ScannerOptions)

/-- The command and the first `k` frames are written. -/
structure Progress (s : Scan) (k : Nat) : Prop where
  within : k ≤ frameCount bytes options
  offset : s.offset = k * options.chunkBytes
  written : s.written = command :: ((payloads bytes options).take k).map frame ++
    (if s.terminated then [terminator] else [])
  last : s.terminated = true → k = frameCount bytes options

variable {bytes options} {accepts : Nat → Bool} {s : Scan} {k : Nat}

/-- The verdict and what was received stay. -/
structure SameReply (s t : Scan) : Prop where
  settled : t.settled = s.settled
  chunks : t.chunks = s.chunks
  responseBytes : t.responseBytes = s.responseBytes

theorem SameReply.trans {t u : Scan} (first : SameReply s t) (second : SameReply t u) :
    SameReply s u :=
  ⟨second.settled.trans first.settled, second.chunks.trans first.chunks,
    second.responseBytes.trans first.responseBytes⟩

theorem writeFrames_sameReply (s : Scan) : SameReply s (writeFrames bytes options accepts s) ∧
    (writeFrames bytes options accepts s).connected = s.connected := by
  fun_induction writeFrames bytes options accepts s with
  | case1 s h chunk next haccepts ih =>
    have hnext : SameReply s next := ⟨rfl, rfl, rfl⟩
    exact ⟨hnext.trans ih.1, ih.2⟩
  | case2 s h chunk next haccepts => exact ⟨⟨rfl, rfl, rfl⟩, rfl⟩
  | case3 s h => exact ⟨⟨rfl, rfl, rfl⟩, rfl⟩

theorem writeChunks_sameReply (bytes : List UInt8) (options : ScannerOptions)
    (accepts : Nat → Bool) (s : Scan) : SameReply s (writeChunks bytes options accepts s) ∧
    (writeChunks bytes options accepts s).connected = s.connected := by
  unfold writeChunks
  split
  · exact ⟨⟨rfl, rfl, rfl⟩, rfl⟩
  · exact writeFrames_sameReply s

theorem Progress.of_eq {t : Scan} (h : Progress bytes options s k) (hoffset : t.offset = s.offset)
    (hwritten : t.written = s.written) (hterminated : t.terminated = s.terminated) :
    Progress bytes options t k :=
  ⟨h.within, hoffset.trans h.offset, by rw [hwritten, hterminated, h.written],
    fun hlast => h.last (hterminated ▸ hlast)⟩

/-- One frame more. -/
theorem Progress.frame (h : Progress bytes options s k) (hopen : s.terminated = false)
    (hoffset : s.offset < bytes.length) :
    Progress bytes options (Scan.write { s with offset := s.offset + options.chunkBytes }
      (Scanner.frame ((bytes.drop s.offset).take options.chunkBytes))) (k + 1) := by
  have hk : k < frameCount bytes options := lt_frameCount.mpr (h.offset ▸ hoffset)
  constructor
  · exact hk
  · change s.offset + options.chunkBytes = _
    rw [h.offset, Nat.add_one_mul]
  · change s.written ++ [_] = _
    rw [h.written, h.offset, take_payloads_succ hk]
    simp [Scan.write, hopen, payloadAt]
  · intro hterminated
    exact absurd (hopen.symm.trans hterminated) (by decide)

/-- After the last frame the terminator. -/
theorem Progress.terminate (h : Progress bytes options s k) (hopen : s.terminated = false)
    (hoffset : ¬ s.offset < bytes.length) :
    Progress bytes options (Scan.write { s with terminated := true } terminator) k := by
  have hk : k = frameCount bytes options := by
    refine Nat.le_antisymm h.within (Nat.le_of_not_lt fun hlt => hoffset ?_)
    rw [h.offset]
    exact lt_frameCount.mp hlt
  refine ⟨h.within, h.offset, ?_, fun _ => hk⟩
  change s.written ++ [_] = _
  rw [h.written]
  simp [Scan.write, hopen]

theorem Progress.writeFrames (h : Progress bytes options s k) (hopen : s.terminated = false) :
    ∃ k, Progress bytes options (Scanner.writeFrames bytes options accepts s) k := by
  fun_induction Scanner.writeFrames bytes options accepts s generalizing k with
  | case1 s hoffset chunk next haccepts =>
    rename_i ih
    exact ih (h.frame hopen hoffset) hopen
  | case2 s hoffset chunk next => exact ⟨k + 1, h.frame hopen hoffset⟩
  | case3 s hoffset => exact ⟨k, h.terminate hopen hoffset⟩

theorem Progress.writeChunks (h : Progress bytes options s k) :
    ∃ k, Progress bytes options (Scanner.writeChunks bytes options accepts s) k := by
  unfold Scanner.writeChunks
  split
  · exact ⟨k, h⟩
  · rename_i hcond
    simp only [Bool.or_eq_true, not_or] at hcond
    exact h.writeFrames (Bool.eq_false_iff.mpr hcond.2)

end Writes

/-! ## The run -/

section Run

variable (bytes : List UInt8) (options : ScannerOptions)

/-- What the peer sent. -/
def received (events : List Event) : List UInt8 :=
  events.flatMap fun event => match event with
    | .data chunk => chunk
    | _ => []

/-- The peer ended the connection, with an answer that the file is fine. -/
def Answered (events : List Event) : Prop :=
  ∃ before after, events = before ++ .end' :: after ∧ (received before).length ≤ 4096 ∧
    responseLine (decodeUtf8 (received before)) = units "stream: OK"

structure Sound (events : List Event) (s : Scan) : Prop where
  unconnected : s.connected = false → s.written = [] ∧ s.offset = 0 ∧ s.terminated = false
  connected : s.connected = true → ∃ k, Progress bytes options s k
  reply : s.settled = none → s.chunks.flatten = received events ∧
    s.responseBytes = (received events).length ∧ s.responseBytes ≤ 4096
  verdict : s.settled = some .clean → Answered events

variable {bytes options} {accepts : Nat → Bool} {events : List Event} {s : Scan} {e : Event}

theorem received_concat (events : List Event) (e : Event) :
    received (events ++ [e]) = received events ++ received [e] := List.flatMap_append

theorem Answered.concat (h : Answered events) (e : Event) : Answered (events ++ [e]) := by
  obtain ⟨before, after, rfl, hlength, hline⟩ := h
  exact ⟨before, after ++ [e], by simp, hlength, hline⟩

theorem parseClamResponse_eq_clean {raw : Text} :
    parseClamResponse raw = .clean ↔ responseLine raw = units "stream: OK" := by
  unfold parseClamResponse
  dsimp only
  split
  · simp_all
  · split <;> simp_all

theorem finish_settled (s : Scan) (verdict : ScanVerdict) :
    (s.finish verdict).settled = some (s.settled.getD verdict) := by
  unfold Scan.finish
  cases hsettled : s.settled with
  | none => rfl
  | some earlier => simp [hsettled]

/-- Writing leaves the reply's part of the invariant. -/
theorem Sound.of_sameReply {t : Scan} (h : Sound bytes options events s) (hsame : SameReply s t)
    (hreceived : received [e] = [])
    (hunconnected : t.connected = false → t.written = [] ∧ t.offset = 0 ∧ t.terminated = false)
    (hconnected : t.connected = true → ∃ k, Progress bytes options t k) :
    Sound bytes options (events ++ [e]) t := by
  refine ⟨hunconnected, hconnected, fun hsettled => ?_, fun hverdict => ?_⟩
  · rw [received_concat, hreceived, List.append_nil, hsame.chunks, hsame.responseBytes]
    exact h.reply (hsame.settled ▸ hsettled)
  · exact (h.verdict (hsame.settled ▸ hverdict)).concat e

/-- Nothing but the verdict and what was received changes. -/
theorem Sound.of_writes {t : Scan} (h : Sound bytes options events s)
    (hconnected : t.connected = s.connected) (hoffset : t.offset = s.offset)
    (hwritten : t.written = s.written) (hterminated : t.terminated = s.terminated)
    (hreply : t.settled = none → t.chunks.flatten = received (events ++ [e]) ∧
      t.responseBytes = (received (events ++ [e])).length ∧ t.responseBytes ≤ 4096)
    (hverdict : t.settled = some .clean → Answered (events ++ [e])) :
    Sound bytes options (events ++ [e]) t := by
  refine ⟨fun hfalse => ?_, fun htrue => ?_, hreply, hverdict⟩
  · rw [hwritten, hoffset, hterminated]
    exact h.unconnected (hconnected ▸ hfalse)
  · obtain ⟨k, hk⟩ := h.connected (hconnected ▸ htrue)
    exact ⟨k, hk.of_eq hoffset hwritten hterminated⟩

/-- The first verdict stays. -/
theorem Sound.finish {t : Scan} {verdict : ScanVerdict} (h : Sound bytes options events s)
    (hconnected : t.connected = s.connected) (hoffset : t.offset = s.offset)
    (hwritten : t.written = s.written) (hterminated : t.terminated = s.terminated)
    (hsettled : t.settled = s.settled)
    (hclean : s.settled = none → verdict = .clean → Answered (events ++ [e])) :
    Sound bytes options (events ++ [e]) (t.finish verdict) := by
  have hverdict := finish_settled t verdict
  refine h.of_writes ?_ ?_ ?_ ?_ (fun hnone => absurd (hverdict.symm.trans hnone) (by simp)) ?_
  · unfold Scan.finish
    split <;> exact hconnected
  · unfold Scan.finish
    split <;> exact hoffset
  · unfold Scan.finish
    split <;> exact hwritten
  · unfold Scan.finish
    split <;> exact hterminated
  · intro hcleanNow
    rw [hverdict, Option.some.injEq, hsettled] at hcleanNow
    cases hearlier : s.settled with
    | none => exact hclean hearlier (by simpa [hearlier] using hcleanNow)
    | some earlier =>
      rw [hearlier, Option.getD_some] at hcleanNow
      exact (h.verdict (by rw [hearlier, hcleanNow])).concat e

theorem Sound.deliver (h : Sound bytes options events s) (hpossible : Possible s e) :
    Sound bytes options (events ++ [e]) (deliver bytes options accepts s e) := by
  cases e with
  | connect =>
    obtain ⟨hwritten, hoffset, hterminated⟩ := h.unconnected hpossible
    have hstart : Progress bytes options (Scan.write { s with connected := true } command) 0 := by
      refine ⟨Nat.zero_le _, by simp [Scan.write, hoffset], ?_, ?_⟩
      · simp [Scan.write, hwritten, hterminated]
      · exact fun hlast => absurd (hterminated.symm.trans hlast) (by decide)
    obtain ⟨hsame, hconnected⟩ := writeChunks_sameReply bytes options accepts
      (Scan.write { s with connected := true } command)
    have hfirst : SameReply s (Scan.write { s with connected := true } command) := ⟨rfl, rfl, rfl⟩
    refine h.of_sameReply (hfirst.trans hsame) rfl (fun hfalse => ?_) fun _ => hstart.writeChunks
    exact absurd (hconnected.symm.trans hfalse) (by simp [Scan.write])
  | drain =>
    obtain ⟨hsame, hconnected⟩ := writeChunks_sameReply bytes options accepts s
    obtain ⟨k, hk⟩ := h.connected hpossible
    refine h.of_sameReply hsame rfl (fun hfalse => ?_) fun _ => hk.writeChunks
    exact absurd (hpossible.symm.trans (hconnected.symm.trans hfalse)) (by decide)
  | data chunk =>
    have hreceived : received (events ++ [.data chunk]) = received events ++ chunk := by
      rw [received_concat]
      simp [received]
    simp only [Scanner.deliver]
    by_cases hsettled : s.settled.isSome = true
    · rw [if_pos hsettled]
      refine h.of_writes rfl rfl rfl rfl (fun hnone => ?_) fun hclean => (h.verdict hclean).concat _
      simp [hnone] at hsettled
    · rw [if_neg hsettled]
      have hnone : s.settled = none := by simpa using hsettled
      obtain ⟨hchunks, hcount, hlimit⟩ := h.reply hnone
      split
      · exact h.finish rfl rfl rfl rfl rfl fun _ hclean => absurd hclean (by simp)
      · rename_i hsmall
        refine h.of_writes rfl rfl rfl rfl (fun _ => ?_) fun hclean => (h.verdict hclean).concat _
        rw [hreceived, List.length_append]
        exact ⟨by simp [hchunks], by simp [hcount], Nat.le_of_not_lt hsmall⟩
  | end' =>
    refine h.finish rfl rfl rfl rfl rfl fun hnone hclean => ?_
    obtain ⟨hchunks, hcount, hlimit⟩ := h.reply hnone
    rw [parseClamResponse_eq_clean, hchunks] at hclean
    exact ⟨events, [], by simp, hcount ▸ hlimit, hclean⟩
  | timeout =>
    exact h.finish rfl rfl rfl rfl rfl fun _ hclean => absurd hclean (by simp [Scan.transportError])
  | deadline =>
    exact h.finish rfl rfl rfl rfl rfl fun _ hclean => absurd hclean (by simp [Scan.transportError])
  | error message =>
    exact h.finish rfl rfl rfl rfl rfl fun _ hclean => absurd hclean (by simp [Scan.transportError])

theorem sound_scanBytes (hsize : bytes.length ≤ maxScanBytes) :
    Sound bytes options [] (scanBytes bytes) := by
  have hnone : (scanBytes bytes).settled = none := by simp [scanBytes, Nat.not_lt.mpr hsize]
  refine ⟨fun _ => ⟨rfl, rfl, rfl⟩, fun hconnected => ?_, fun _ => ?_, fun hclean => ?_⟩
  · exact absurd hconnected (by simp [scanBytes])
  · exact ⟨rfl, rfl, Nat.zero_le _⟩
  · simp [hnone] at hclean

theorem sound_run (hsize : bytes.length ≤ maxScanBytes)
    (run : (scanSystem bytes options accepts).Run (scanBytes bytes) events s) :
    Sound bytes options events s := by
  generalize hstart : scanBytes bytes = start at run
  induction run with
  | nil =>
    subst hstart
    exact sound_scanBytes hsize
  | snoc _ last ih =>
    obtain ⟨hpossible, rfl⟩ := last
    exact ih.deliver hpossible

/-! ## Early answers -/

/-- The peer ends the connection after a good answer, with frames or the terminator still to be
written. -/
def Early (s : Scan) (e : Event) : Prop :=
  e = .end' ∧ s.settled = none ∧ s.terminated = false ∧
    responseLine (decodeUtf8 s.chunks.flatten) = units "stream: OK"

/-- Settled for good, the terminator never written. -/
def Abandoned (s : Scan) : Prop := s.settled = some .clean ∧ s.terminated = false

theorem writeChunks_settled {verdict : ScanVerdict} (h : s.settled = some verdict) :
    writeChunks bytes options accepts s = s := by
  simp [writeChunks, h]

theorem deliver_settled {verdict : ScanVerdict} (h : s.settled = some verdict) :
    (deliver bytes options accepts s e).settled = some verdict ∧
      (deliver bytes options accepts s e).terminated = s.terminated := by
  have hfinish : ∀ other, s.finish other = s := fun other => by simp [Scan.finish, h]
  cases e with
  | connect =>
    have hwrite : (Scan.write { s with connected := true } command).settled = some verdict := h
    rw [deliver, writeChunks_settled hwrite]
    exact ⟨h, rfl⟩
  | drain =>
    rw [deliver, writeChunks_settled h]
    exact ⟨h, rfl⟩
  | data chunk => simp [deliver, h]
  | end' => simp [deliver, hfinish, h]
  | timeout => simp [deliver, hfinish, h]
  | deadline => simp [deliver, hfinish, h]
  | error message => simp [deliver, hfinish, h]

theorem abandoned_of_early (h : Early s e) : Abandoned (deliver bytes options accepts s e) := by
  obtain ⟨rfl, hnone, hopen, hline⟩ := h
  have hclean := parseClamResponse_eq_clean.mpr hline
  simp [Abandoned, deliver, Scan.finish, hnone, hopen, hclean]

/-- A verdict that a step other than an early answer takes comes after the terminator. -/
theorem terminated_of_clean (h : s.settled = some .clean → s.terminated = true) (hearly : ¬ Early s e)
    (hclean : (deliver bytes options accepts s e).settled = some .clean) :
    (deliver bytes options accepts s e).terminated = true := by
  cases hsettled : s.settled with
  | some verdict =>
    obtain ⟨hsame, hterminated⟩ := @deliver_settled bytes options accepts s e verdict hsettled
    rw [hterminated]
    exact h (hsettled.trans (hsame.symm.trans hclean))
  | none =>
    have hfinish : ∀ verdict, (s.finish verdict).settled = some verdict ∧
        (s.finish verdict).terminated = s.terminated := by
      intro verdict
      simp [Scan.finish, hsettled]
    cases e with
    | connect =>
      obtain ⟨hsame, -⟩ := writeChunks_sameReply bytes options accepts
        (Scan.write { s with connected := true } command)
      exact absurd (hsettled.symm.trans (hsame.settled.symm.trans hclean)) (by simp)
    | drain =>
      obtain ⟨hsame, -⟩ := writeChunks_sameReply bytes options accepts s
      exact absurd (hsettled.symm.trans (hsame.settled.symm.trans hclean)) (by simp)
    | data chunk =>
      simp only [deliver] at hclean
      rw [if_neg (by simp [hsettled])] at hclean
      split at hclean
      · simp [Scan.finish, hsettled] at hclean
      · exact absurd (hsettled.symm.trans hclean) (by simp)
    | end' =>
      rw [deliver, (hfinish _).1, Option.some.injEq, parseClamResponse_eq_clean] at hclean
      rw [deliver, (hfinish _).2]
      by_contra hopen
      exact hearly ⟨rfl, hsettled, Bool.eq_false_iff.mpr hopen, hclean⟩
    | timeout =>
      rw [deliver, (hfinish _).1, Option.some.injEq] at hclean
      exact absurd hclean (by simp [Scan.transportError])
    | deadline =>
      rw [deliver, (hfinish _).1, Option.some.injEq] at hclean
      exact absurd hclean (by simp [Scan.transportError])
    | error message =>
      rw [deliver, (hfinish _).1, Option.some.injEq] at hclean
      exact absurd hclean (by simp [Scan.transportError])

/-- A run without an early answer takes no verdict before the terminator. -/
theorem terminated_of_run {start : Scan} (hstart : start.settled ≠ some .clean)
    (run : (scanSystem bytes options accepts).Run start events s)
    (hearly : ∀ t e u, (scanSystem bytes options accepts).Takes start events s t e u → ¬ Early t e) :
    s.settled = some .clean → s.terminated = true := by
  induction run with
  | nil => exact fun hclean => absurd hclean hstart
  | @snoc t u events e before last ih =>
    have hprevious := ih fun v e' w htakes => by
      obtain ⟨first, rest, hsplit, hfirst, hstep, hrest⟩ := htakes
      exact hearly v e' w ⟨first, rest ++ [e], by simp [hsplit], hfirst, hstep, .snoc hrest last⟩
    have hnow := hearly t e u ⟨events, [], rfl, before, last, .nil u⟩
    obtain ⟨-, rfl⟩ := last
    exact terminated_of_clean hprevious hnow

theorem abandoned_of_takes {start t u : Scan}
    (htakes : (scanSystem bytes options accepts).Takes start events s t e u) (hearly : Early t e) :
    Abandoned s := by
  obtain ⟨first, rest, -, -, hstep, hrest⟩ := htakes
  obtain ⟨-, rfl⟩ := hstep
  refine hrest.preserves (abandoned_of_early hearly) fun v e w hv hstep => ?_
  obtain ⟨-, rfl⟩ := hstep
  obtain ⟨hsettled, hterminated⟩ := deliver_settled hv.1
  exact ⟨hsettled, hterminated.trans hv.2⟩

/-- Everything is written exactly where the terminator is. -/
theorem written_iff (hsound : Sound bytes options events s) :
    s.written = command :: (payloads bytes options).map frame ++ [terminator] ↔
      s.terminated = true := by
  have hconnected : s.terminated = true ∨ s.written ≠ [] → s.connected = true := by
    intro h
    by_contra hnot
    obtain ⟨hwritten, -, hterminated⟩ := hsound.unconnected (Bool.eq_false_iff.mpr hnot)
    rcases h with h | h
    · exact absurd (hterminated.symm.trans h) (by decide)
    · exact h hwritten
  constructor
  · intro hall
    obtain ⟨k, hk⟩ := hsound.connected (hconnected (.inr (by simp [hall])))
    by_contra hopen
    have hlength := congrArg List.length (hk.written.symm.trans hall)
    simp [hopen, length_payloads] at hlength
    omega
  · intro hterminated
    obtain ⟨k, hk⟩ := hsound.connected (hconnected (.inl hterminated))
    have hlast := hk.last hterminated
    rw [hk.written, hterminated, if_pos rfl, hlast, ← length_payloads, List.take_length]

/-- The bytes written are the command, the frames so far and at most one terminator after the last.
A file passes only on a good answer, and only after all of that exactly where no answer is taken
early. -/
theorem scan_run (hsize : bytes.length ≤ maxScanBytes) :
    ∃ payloads : List (List UInt8), payloads.flatten = bytes ∧
      (∀ payload ∈ payloads, payload ≠ [] ∧
        BigEndian.value ((frame payload).take 4) = payload.length) ∧
      ∀ accepts events s,
        (scanSystem bytes options accepts).Run (scanBytes bytes) events s →
          (s.written = [] ∨ ∃ k ended, k ≤ payloads.length ∧
            (ended = true → k = payloads.length) ∧
            s.written = command :: (payloads.take k).map frame ++
              (if ended then [terminator] else [])) ∧
          (s.settled = some .clean → Answered events) ∧
          ((s.settled = some .clean →
              s.written = command :: payloads.map frame ++ [terminator]) ↔
            ∀ t e u, (scanSystem bytes options accepts).Takes (scanBytes bytes) events s t e u →
              ¬ Early t e) := by
  refine ⟨payloads bytes options, flatten_payloads,
    fun payload h => ⟨payload_ne_nil h, header_frame hsize h⟩, ?_⟩
  intro accepts events s run
  have hsound := sound_run hsize run
  refine ⟨?_, hsound.verdict, ?_⟩
  · cases hconnected : s.connected with
    | false => exact .inl (hsound.unconnected hconnected).1
    | true =>
      obtain ⟨k, hk⟩ := hsound.connected hconnected
      rw [length_payloads]
      exact .inr ⟨k, s.terminated, hk.within, hk.last, hk.written⟩
  · rw [written_iff hsound]
    constructor
    · intro hall t e u htakes hearly
      obtain ⟨hclean, hopen⟩ := abandoned_of_takes htakes hearly
      exact absurd (hopen.symm.trans (hall hclean)) (by decide)
    · intro hearly
      exact terminated_of_run (by simp [scanBytes, Nat.not_lt.mpr hsize]) run hearly

end Run

/-- Frames of two bytes. -/
def pairOptions : ScannerOptions := ⟨2, by decide⟩

/-- `stream: OK\0` -/
def goodReply : List UInt8 := Utf16.encodeUtf8 (units "stream: OK" ++ [0])

theorem goodReply_clean : parseClamResponse (decodeUtf8 goodReply) = .clean := by
  rw [parseClamResponse_eq_clean, goodReply,
    Utf16.decodeUtf8_encodeUtf8 (Utf16.not_unpaired_of_any (by decide))]
  decide

/-- A scan of three bytes: the socket connects, the peer answers and ends the connection. -/
theorem run_answered {accepts : Nat → Bool} {offset : Nat} {terminated : Bool}
    {written : List (List UInt8)}
    (h : deliver [1, 2, 3] pairOptions accepts (scanBytes [1, 2, 3]) .connect =
      ⟨none, true, [], 0, offset, terminated, written⟩) :
    (scanSystem [1, 2, 3] pairOptions accepts).Run (scanBytes [1, 2, 3])
      [.connect, .data goodReply, .end']
      ⟨some .clean, true, [goodReply], 11, offset, terminated, written⟩ := by
  have hlength : goodReply.length = 11 := by decide
  have hdata : deliver [1, 2, 3] pairOptions accepts
      ⟨none, true, [], 0, offset, terminated, written⟩ (.data goodReply) =
        ⟨none, true, [goodReply], 11, offset, terminated, written⟩ := by
    simp [deliver, hlength]
  have hend : deliver [1, 2, 3] pairOptions accepts
      ⟨none, true, [goodReply], 11, offset, terminated, written⟩ .end' =
        ⟨some .clean, true, [goodReply], 11, offset, terminated, written⟩ := by
    simp [deliver, Scan.finish, goodReply_clean]
  have hconnect : (scanSystem [1, 2, 3] pairOptions accepts).Run (scanBytes [1, 2, 3]) [.connect]
      ⟨none, true, [], 0, offset, terminated, written⟩ := .single ⟨rfl, h⟩
  have hreply : (scanSystem [1, 2, 3] pairOptions accepts).Run (scanBytes [1, 2, 3])
      ([.connect] ++ [.data goodReply])
      ⟨none, true, [goodReply], 11, offset, terminated, written⟩ := hconnect.snoc ⟨trivial, hdata⟩
  exact hreply.snoc ⟨trivial, hend⟩

/-- With every write accepted. -/
theorem scan_run_accepted : Answered [.connect, .data goodReply, .end'] := by
  obtain ⟨_, _, _, hruns⟩ := @scan_run [1, 2, 3] pairOptions (by decide)
  have hconnect : deliver [1, 2, 3] pairOptions (fun _ => true) (scanBytes [1, 2, 3]) .connect =
      ⟨none, true, [], 0, 4, true, [command, frame [1, 2], frame [3], terminator]⟩ := by
    simp [deliver, writeChunks, writeFrames, scanBytes, maxScanBytes, Scan.write, pairOptions]
  exact (hruns _ _ _ (run_answered hconnect)).2.1 rfl

/-- The socket takes no more after the first frame, and the third byte is never sent. -/
theorem scan_run_refused : ∃ s, (scanSystem [1, 2, 3] pairOptions fun n => n ≠ 1).Run
      (scanBytes [1, 2, 3]) [.connect, .data goodReply, .end'] s ∧
    s.settled = some .clean ∧ s.written = [command, frame [1, 2]] := by
  have hconnect : deliver [1, 2, 3] pairOptions (fun n => n ≠ 1) (scanBytes [1, 2, 3]) .connect =
      ⟨none, true, [], 0, 2, false, [command, frame [1, 2]]⟩ := by
    simp [deliver, writeChunks, writeFrames, scanBytes, maxScanBytes, Scan.write, pairOptions]
  exact ⟨_, run_answered hconnect, rfl, rfl⟩

end MpcRegistry.Scanner
