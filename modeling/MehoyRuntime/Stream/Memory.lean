import MehoyRuntime.Stream.Framing

/-!
# What the decoder keeps, and how long its loop runs

The limit is checked once, before any line is taken. It bounds what is kept afterwards all
the same: a line adds no more to the data than it takes out of the buffer.
-/

namespace MehoyRuntime.Stream
namespace SseDecoder

/-- The loop of `push` after the events found so far, with the number of its iterations. It
takes lines until there is none or one is malformed. -/
inductive Loop : SseDecoder → List String → ℕ → Except String (List String) × SseDecoder → Prop
  | ended {d d' : SseDecoder} {events : List String} (htake : d.takeLine = (none, d')) :
      Loop d events 0 (.ok events, d')
  | failed {d after d' : SseDecoder} {events : List String} {line : List UInt8} {detail : String}
      (htake : d.takeLine = (some line, after)) (hconsume : after.consume line = (.error detail, d')) :
      Loop d events 1 (.error detail, d')
  | turn {d after consumed : SseDecoder} {events : List String} {line : List UInt8}
      {event : Option String} {n : ℕ} {result : Except String (List String) × SseDecoder}
      (htake : d.takeLine = (some line, after))
      (hconsume : after.consume line = (.ok event, consumed))
      (hrest : Loop consumed (events ++ event.toList) n result) : Loop d events (n + 1) result

variable {d d' : SseDecoder} {events : List String} {chunk : List UInt8}

/-- Where the loop ends, and after how many iterations, is determined. -/
theorem Loop.unique {n m : ℕ} {result other : Except String (List String) × SseDecoder}
    (h : Loop d events n result) (h' : Loop d events m other) : m = n ∧ other = result := by
  induction h generalizing m with
  | ended htake =>
    cases h' with
    | ended htake' =>
      rw [htake] at htake'
      cases htake'
      exact ⟨rfl, rfl⟩
    | failed htake' | turn htake' =>
      rw [htake] at htake'
      cases htake'
  | failed htake hconsume =>
    cases h' with
    | ended htake' =>
      rw [htake] at htake'
      cases htake'
    | failed htake' hconsume' =>
      rw [htake] at htake'
      cases htake'
      rw [hconsume] at hconsume'
      cases hconsume'
      exact ⟨rfl, rfl⟩
    | turn htake' hconsume' =>
      rw [htake] at htake'
      cases htake'
      rw [hconsume] at hconsume'
      cases hconsume'
  | turn htake hconsume _ ih =>
    cases h' with
    | ended htake' =>
      rw [htake] at htake'
      cases htake'
    | failed htake' hconsume' =>
      rw [htake] at htake'
      cases htake'
      rw [hconsume] at hconsume'
      cases hconsume'
    | turn htake' hconsume' hrest' =>
      rw [htake] at htake'
      cases htake'
      rw [hconsume] at hconsume'
      cases hconsume'
      obtain ⟨rfl, hresult⟩ := ih hrest'
      exact ⟨rfl, hresult⟩

/-- Every iteration takes at least one byte. -/
theorem drainLines_loop (fuel : ℕ) (d : SseDecoder) (events : List String)
    (hfuel : d.buffer.length ≤ fuel) :
    ∃ n ≤ d.buffer.length, Loop d events n (drainLines fuel d events) := by
  induction fuel generalizing d events with
  | zero =>
    have hnil : d.buffer = [] := List.length_eq_zero_iff.mp (by omega)
    have htake : d.takeLine = (none, d) := by simp [takeLine, lineEnd, hnil]
    exact ⟨0, Nat.zero_le _, .ended htake⟩
  | succ fuel ih =>
    rcases htake : d.takeLine with ⟨_ | line, after⟩
    · refine ⟨0, Nat.zero_le _, ?_⟩
      rw [show drainLines (fuel + 1) d events = (.ok events, after) by simp only [drainLines, htake]]
      exact .ended htake
    · have hlt := takeLine_length htake
      have hbuffer := consume_buffer after line
      rcases hconsume : after.consume line with ⟨detail | event, consumed⟩
      · refine ⟨1, by omega, ?_⟩
        rw [show drainLines (fuel + 1) d events = (.error detail, consumed) by
          simp only [drainLines, htake, hconsume]]
        exact .failed htake hconsume
      · rw [hconsume] at hbuffer
        replace hbuffer : consumed.buffer = after.buffer := hbuffer
        obtain ⟨n, hn, hloop⟩ := ih consumed (events ++ event.toList) (by rw [hbuffer]; omega)
        rw [hbuffer] at hn
        rw [drainLines_step htake hconsume]
        exact ⟨n + 1, by omega, .turn htake hconsume hloop⟩

theorem push_loop (h : d.push chunk = (.ok events, d')) :
    ∃ n ≤ (d.buffer ++ chunk).length,
      Loop { d with buffer := d.buffer ++ chunk } [] n (.ok events, d') := by
  have hloop := drainLines_loop (d.buffer ++ chunk).length { d with buffer := d.buffer ++ chunk } []
    (Nat.le_refl _)
  have hpush : drainLines (d.buffer ++ chunk).length { d with buffer := d.buffer ++ chunk } [] =
      (.ok events, d') := by
    unfold push at h
    simp only at h
    split at h
    · cases h
    · exact h
  rwa [hpush] at hloop

/-- What a push keeps, what it keeps and returns together, and its iterations against the
bytes that the buffer had. -/
structure Limited (before : SseDecoder) (events : List String) (d : SseDecoder) : Prop where
  buffer : d.buffer.length ≤ maxPendingBytes
  held : d.buffer.length + d.data.utf8ByteSize ≤ 2 * maxPendingBytes
  returned : eventBytes events + (d.buffer.length + d.data.utf8ByteSize) ≤ 2 * maxPendingBytes
  iterations : ∃ n ≤ before.buffer.length, Loop before [] n (.ok events, d) ∧
    ∀ m result, Loop before [] m result → m = n

/-- The bounds need nothing of the decoder that the chunk is pushed into. -/
theorem push_bounds (h : d.push chunk = (.ok events, d')) :
    Limited { d with buffer := d.buffer ++ chunk } events d' := by
  obtain ⟨hbuffer, hdata⟩ := push_fits h
  obtain ⟨hbytes, hkept⟩ := push_conserves h
  obtain ⟨n, hn, hloop⟩ := push_loop h
  simp only [heldBytes] at hbytes
  constructor
  case buffer => omega
  case held => omega
  case returned => omega
  case iterations => exact ⟨n, hn, hloop, fun m result h => (hloop.unique h).1⟩

/-- The decoder after any chunks, whatever their pushes returned. -/
def after (chunks : List (List UInt8)) : SseDecoder :=
  chunks.foldl (fun d chunk => (d.push chunk).2) default

theorem push_bounded {chunks : List (List UInt8)} {chunk : List UInt8} {events : List String}
    {d : SseDecoder} (h : (after chunks).push chunk = (.ok events, d)) :
    Limited { after chunks with buffer := (after chunks).buffer ++ chunk } events d :=
  push_bounds h

/-- `data: h`, a blank line and the start of a line, in three chunks. -/
theorem push_bounded_cut :
    (after [[0x64, 0x61], [0x74, 0x61, 0x3a]]).push [0x20, 0x68, 0x0a, 0x0a, 0x64] =
      (.ok ["h"], ⟨[0x64], "", false⟩) ∧
    Limited { after [[0x64, 0x61], [0x74, 0x61, 0x3a]] with
      buffer := (after [[0x64, 0x61], [0x74, 0x61, 0x3a]]).buffer ++ [0x20, 0x68, 0x0a, 0x0a, 0x64] }
      ["h"] ⟨[0x64], "", false⟩ := by
  have hpush : (after [[0x64, 0x61], [0x74, 0x61, 0x3a]]).push [0x20, 0x68, 0x0a, 0x0a, 0x64] =
      (.ok ["h"], ⟨[0x64], "", false⟩) := by decide
  exact ⟨hpush, push_bounded hpush⟩

end SseDecoder
end MehoyRuntime.Stream
