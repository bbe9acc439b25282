import CooperativeTsn.Infra.Window
import CooperativeTsn.Stream.TsnStream

/-!
# The window of arrivals

What a stream knows after any sequence of packets.

* `receive_window` — the window is the last ten offsets, newest first, followed by the initial zeros
* `receive_numberPackets` — the counter is the number of packets
* `search_span` — what the two searches of `getNewSlotSize` find
* `receive_update` — size and start time after an update, in terms of these
* `receive_steady` — between two updates neither of them changes
-/

namespace CooperativeTsn

open Infra Infra.SimTime

namespace TsnStream

variable {Module : Type} {s : TsnStream Module} {off : Int}

/-! ## Offsets -/

/-- The offset of an arrival lies inside the cycle. -/
theorem arrivalOffset_bounds {t : Int} (hoff : off ≤ 100 * sec) (ht : 0 ≤ t) :
    0 ≤ arrivalOffset off t ∧ arrivalOffset off t < cycleTime := by
  have h0 : 0 ≤ fmod (trunc ns t) cycleTime := fmod_nonneg (trunc_nonneg (by decide) ht) _
  exact ⟨fmod_nonneg (Int.add_nonneg h0 (Int.sub_nonneg_of_le hoff)) _, fmod_lt (by decide)⟩

/-- Up to the cycle the offset is the truncated arrival less the offset of the creation. -/
theorem arrivalOffset_modEq (off t : Int) :
    arrivalOffset off t ≡ trunc ns t - off [ZMOD cycleTime] := by
  have h1 := fmod_modEq (fmod (trunc ns t) cycleTime + (100 * sec - off)) cycleTime
  have h2 := (fmod_modEq (trunc ns t) cycleTime).add_right (100 * sec - off)
  have h3 : trunc ns t + (100 * sec - off) ≡ trunc ns t - off [ZMOD cycleTime] :=
    Int.modEq_iff_dvd.mpr ⟨-1000, by simp only [cycleTime, sec]; omega⟩
  exact (h1.trans h2).trans h3

/-- Offsets are whole nanoseconds when the creation offset is. -/
theorem ns_dvd_arrivalOffset (hoff : ns ∣ off) (t : Int) : ns ∣ arrivalOffset off t :=
  dvd_fmod ⟨100000000, by decide⟩ (Int.dvd_add (dvd_fmod ⟨100000000, by decide⟩ (dvd_trunc ns t))
    (Int.dvd_sub ⟨100000000000, by decide⟩ hoff))

theorem getCreationTimeOffset_bounds {c : Int} (hc : 0 ≤ c) :
    0 ≤ getCreationTimeOffset c ∧ getCreationTimeOffset c < cycleTime :=
  ⟨fmod_nonneg (trunc_nonneg (by decide) hc) _, fmod_lt (by decide)⟩

theorem ns_dvd_getCreationTimeOffset (c : Int) : ns ∣ getCreationTimeOffset c :=
  dvd_fmod ⟨100000000, by decide⟩ (Int.dvd_trans ⟨1000, by decide⟩ (dvd_trunc us c))

/-! ## Runs -/

/-- A stream as the constructor and the copy that follows it leave it. -/
structure Fresh (s : TsnStream Module) : Prop where
  window : s.lastTimePacketArrived = List.replicate queueSize 0
  numberPackets : s.numberPackets = 0
  size_nonneg : 0 ≤ s.originalPacketSize

/-- A stream between two nameless modules, as it is before its first packet. -/
def blank (bits : Int) : TsnStream Unit :=
  { streamName := "", pcp := 0, gateIndex := 0, applicationModule := some (),
    sourceModule := some (), externalSourceModule := some (), destinationModule := some (),
    packetSize := bits, packetInterval := 0, maxLatency := 0, maxJitter := 0, pathFragments := [],
    lastTimePacketArrived := List.replicate queueSize 0, startTime := 0, numberPackets := 0,
    originalPacketSize := bits }

theorem blank_fresh {bits : Int} (hb : 0 ≤ bits) : (blank bits).Fresh := ⟨rfl, rfl, hb⟩

/-- The part of a stream that decides the next reservation. -/
structure SeenBy (off : Int) (ts : List Int) (s₀ s : TsnStream Module) : Prop where
  window : s.lastTimePacketArrived
    = (ts.reverse.map (arrivalOffset off) ++ s₀.lastTimePacketArrived).take queueSize
  numberPackets : s.numberPackets = s₀.numberPackets + ts.length
  size : s.originalPacketSize = s₀.originalPacketSize

section

variable {β : Type} {f : TsnStream Module → β}

/-- What the start time does not decide is left alone. -/
theorem getNewSlotSize_frame (hstart : ∀ s t, f { s with startTime := t } = f s)
    (s : TsnStream Module) : f s.getNewSlotSize.2 = f s := by
  unfold getNewSlotSize
  split
  · exact hstart s _
  · rfl

/-- What size, interval and start time do not decide, a later packet changes as `pushTime` does. -/
theorem nextPacket_frame (hstart : ∀ s t, f { s with startTime := t } = f s)
    (hsize : ∀ s bits, f (setPacketSize bits s) = f s)
    (hinterval : ∀ s, f (setPacketInterval s) = f s) (off : Int) (s : TsnStream Module) (t : Int) :
    f (s.nextPacket off t) = f (s.pushTime off t) := by
  unfold nextPacket
  rw [hinterval, hsize, getNewSlotSize_frame hstart]

end

theorem nextPacket_window (off : Int) (s : TsnStream Module) (t : Int) :
    (s.nextPacket off t).lastTimePacketArrived = (s.pushTime off t).lastTimePacketArrived :=
  nextPacket_frame (f := lastTimePacketArrived) (fun _ _ => rfl) (fun _ _ => rfl) (fun _ => rfl) ..

theorem nextPacket_numberPackets (off : Int) (s : TsnStream Module) (t : Int) :
    (s.nextPacket off t).numberPackets = (s.pushTime off t).numberPackets :=
  nextPacket_frame (f := numberPackets) (fun _ _ => rfl) (fun _ _ => rfl) (fun _ => rfl) ..

theorem nextPacket_size (off : Int) (s : TsnStream Module) (t : Int) :
    (s.nextPacket off t).originalPacketSize = (s.pushTime off t).originalPacketSize :=
  nextPacket_frame (f := originalPacketSize) (fun _ _ => rfl) (fun _ _ => rfl) (fun _ => rfl) ..

/-- Size and start time come from `getNewSlotSize`. -/
theorem nextPacket_packetSize (off : Int) (s : TsnStream Module) (t : Int) :
    (s.nextPacket off t).packetSize = (s.pushTime off t).getNewSlotSize.1 := by
  simp only [nextPacket, setPacketInterval, setPacketSize]

theorem nextPacket_startTime (off : Int) (s : TsnStream Module) (t : Int) :
    (s.nextPacket off t).startTime = (s.pushTime off t).getNewSlotSize.2.startTime := by
  simp only [nextPacket, setPacketInterval, setPacketSize]

/-- One more packet. -/
theorem SeenBy.pushTime {ts : List Int} {s₀ : TsnStream Module}
    (h₀ : s₀.lastTimePacketArrived.length = queueSize) (h : SeenBy off ts s₀ s) (t : Int) :
    SeenBy off (ts ++ [t]) s₀ (s.pushTime off t) where
  window := by
    have hlen : s.lastTimePacketArrived.length = queueSize := by
      rw [h.window, List.length_take, List.length_append, h₀]; omega
    show Window.push queueSize (arrivalOffset off t) s.lastTimePacketArrived = _
    rw [Window.push_eq_take hlen (by decide), h.window, List.reverse_append, List.reverse_singleton,
      List.singleton_append, List.map_cons, List.cons_append]
    simp only [queueSize, List.take_succ_cons, List.take_take]
    rfl
  numberPackets := by
    show s.numberPackets + 1 = _
    rw [h.numberPackets, List.length_append, List.length_singleton, Nat.add_assoc]
  size := h.size

theorem SeenBy.firstPacket {ts : List Int} {s₀ : TsnStream Module}
    (h₀ : s₀.lastTimePacketArrived.length = queueSize) (h : SeenBy off ts s₀ s) (t : Int) :
    SeenBy off (ts ++ [t]) s₀ (s.firstPacket off t) :=
  let hp := h.pushTime h₀ t
  ⟨hp.window, hp.numberPackets, hp.size⟩

theorem SeenBy.nextPacket {ts : List Int} {s₀ : TsnStream Module}
    (h₀ : s₀.lastTimePacketArrived.length = queueSize) (h : SeenBy off ts s₀ s) (t : Int) :
    SeenBy off (ts ++ [t]) s₀ (s.nextPacket off t) := by
  have hp := h.pushTime h₀ t
  constructor
  · rw [nextPacket_window, hp.window]
  · rw [nextPacket_numberPackets, hp.numberPackets]
  · rw [nextPacket_size, hp.size]

theorem SeenBy.refl (h₀ : s.lastTimePacketArrived.length = queueSize) : SeenBy off [] s s :=
  ⟨by simp [← h₀], rfl, rfl⟩

theorem SeenBy.foldl_nextPacket {s₀ : TsnStream Module}
    (h₀ : s₀.lastTimePacketArrived.length = queueSize) :
    ∀ (us ts : List Int) (s : TsnStream Module), SeenBy off ts s₀ s →
      SeenBy off (ts ++ us) s₀ (us.foldl (fun s t => s.nextPacket off t) s)
  | [], ts, s, h => by simpa using h
  | u :: us, ts, s, h => by
    have := SeenBy.foldl_nextPacket h₀ us (ts ++ [u]) _ (h.nextPacket h₀ u)
    simpa using this

theorem receive_seenBy (off : Int) (h₀ : s.lastTimePacketArrived.length = queueSize) :
    ∀ ts : List Int, SeenBy off ts s (s.receive off ts)
  | [] => SeenBy.refl h₀
  | t :: ts => SeenBy.foldl_nextPacket h₀ ts [t] _ ((SeenBy.refl h₀).firstPacket h₀ t)

/-- The last packet of a run of at least two is handed to a known stream. -/
theorem receive_append_singleton (s : TsnStream Module) {ts : List Int} (h : ts ≠ []) (t : Int) :
    s.receive off (ts ++ [t]) = (s.receive off ts).nextPacket off t := by
  cases ts with
  | nil => exact absurd rfl h
  | cons u us => simp [receive]

/-! ## Fresh streams -/

/-- The offsets of the packets that the window holds, newest first. -/
def held (off : Int) (ts : List Int) : List Int :=
  (ts.reverse.map (arrivalOffset off)).take queueSize

theorem receive_window (off : Int) (hs : s.Fresh) (ts : List Int) :
    (s.receive off ts).lastTimePacketArrived
      = held off ts ++ List.replicate (queueSize - ts.length) 0 := by
  have h := (receive_seenBy off (by rw [hs.window]; rfl) ts).window
  rw [h, hs.window, Window.take_append_replicate, List.length_map, List.length_reverse]
  rfl

theorem receive_numberPackets (off : Int) (hs : s.Fresh) (ts : List Int) :
    (s.receive off ts).numberPackets = ts.length := by
  rw [(receive_seenBy off (by rw [hs.window]; rfl) ts).numberPackets, hs.numberPackets, Nat.zero_add]

theorem mem_held {ts : List Int} {a : Int} (h : a ∈ held off ts) :
    ∃ t ∈ ts, a = arrivalOffset off t := by
  obtain ⟨t, ht, rfl⟩ := List.mem_map.mp (List.mem_of_mem_take h)
  exact ⟨t, List.mem_reverse.mp ht, rfl⟩

/-! ## The searches -/

/-- `m` and `M` are the smallest and the largest of the entries that are not zero. -/
structure IsSpan (l : List Int) (m M : Int) : Prop where
  min_mem : m ∈ l
  max_mem : M ∈ l
  min_pos : 0 < m
  max_pos : 0 < M
  bounds : ∀ a ∈ l, a ≠ 0 → m ≤ a ∧ a ≤ M

theorem IsSpan.unique {l : List Int} {m M m' M' : Int} (h : IsSpan l m M) (h' : IsSpan l m' M') :
    m = m' ∧ M = M' := by
  have h1 := h.bounds m' h'.min_mem (by have := h'.min_pos; omega)
  have h2 := h'.bounds m h.min_mem (by have := h.min_pos; omega)
  have h3 := h.bounds M' h'.max_mem (by have := h'.max_pos; omega)
  have h4 := h'.bounds M h.max_mem (by have := h.max_pos; omega)
  omega

/-- The searches find nothing among zeros. -/
theorem search_zeros {l : List Int} (hl : ∀ a ∈ l, a = 0) : earliest l = 0 ∧ latest l = 0 := by
  have hz : l = List.replicate l.length 0 := List.eq_replicate_iff.mpr ⟨rfl, hl⟩
  rw [hz]
  exact ⟨Search.foldl_step_replicate _ _ _ _, Search.foldl_step_replicate _ _ _ _⟩

/-- As soon as some entry is not zero they find the span of these entries. -/
theorem search_span {l : List Int} (hl : ∀ a ∈ l, 0 ≤ a) (hne : ∃ a ∈ l, a ≠ 0) :
    IsSpan l (earliest l) (latest l) := by
  have hm0 : earliest l ≠ 0 := Search.foldl_step_ne _ _ l 0 (Or.inr hne)
  have hM0 : latest l ≠ 0 := Search.foldl_step_ne _ _ l 0 (Or.inr hne)
  have hm : earliest l ∈ l := (Search.foldl_step_mem _ _ l 0).resolve_left hm0
  have hM : latest l ∈ l := (Search.foldl_step_mem _ _ l 0).resolve_left hM0
  have hmin := (Search.foldl_step_best (0 : Int) (· < ·) (by omega) (by omega) (by omega) l 0).1
  have hmax := (Search.foldl_step_best (0 : Int) (· > ·) (by omega) (by omega) (by omega) l 0).1
  have h1 := hl _ hm
  have h2 := hl _ hM
  exact ⟨hm, hM, by omega, by omega,
    fun a ha h => ⟨Int.not_lt.mp (hmin a ha h), Int.not_lt.mp (hmax a ha h)⟩⟩

/-! ## Updates -/

theorem getNewSlotSize_of_isUpdate (h : s.isUpdate) :
    s.getNewSlotSize.1 = slotBits (latest s.lastTimePacketArrived - earliest s.lastTimePacketArrived)
        s.originalPacketSize ∧
      s.getNewSlotSize.2.startTime = fmod (earliest s.lastTimePacketArrived
        - (adjustment (latest s.lastTimePacketArrived
            - earliest s.lastTimePacketArrived)).tdiv 2) cycleTime := by
  rw [getNewSlotSize, if_pos h]
  exact ⟨rfl, rfl⟩

/-- Size and start time after an update. -/
theorem receive_update (off : Int) (hs : s.Fresh) {ts : List Int}
    (hup : ts.length % updateIntervall = 2) :
    (s.receive off ts).packetSize
        = slotBits (latest (held off ts) - earliest (held off ts)) s.originalPacketSize ∧
      (s.receive off ts).startTime
        = fmod (earliest (held off ts)
            - (adjustment (latest (held off ts) - earliest (held off ts))).tdiv 2) cycleTime := by
  have hlen : 2 ≤ ts.length := by
    have : ts.length % 10 = 2 := hup
    omega
  have hne : ts ≠ [] := by
    rintro rfl; simp at hlen
  obtain ⟨us, t, rfl⟩ : ∃ us t, ts = us ++ [t] :=
    ⟨ts.dropLast, ts.getLast hne, (List.dropLast_concat_getLast hne).symm⟩
  have hus : us ≠ [] := by
    rintro rfl; simp at hlen
  have hw := receive_window off hs (us ++ [t])
  have hn := receive_numberPackets off hs (us ++ [t])
  have hsz : (s.receive off (us ++ [t])).originalPacketSize = s.originalPacketSize :=
    (receive_seenBy off (by rw [hs.window]; rfl) (us ++ [t])).size
  rw [receive_append_singleton s hus] at hw hn hsz ⊢
  rw [nextPacket_window] at hw
  rw [nextPacket_numberPackets] at hn
  rw [nextPacket_size] at hsz
  have hp : ((s.receive off us).pushTime off t).isUpdate := by
    show ((s.receive off us).pushTime off t).numberPackets % updateIntervall = 2
    rw [hn, hup]
  have he : earliest ((s.receive off us).pushTime off t).lastTimePacketArrived
      = earliest (held off (us ++ [t])) := by
    rw [hw]; exact Search.search_append_replicate _ _ _ _
  have hl : latest ((s.receive off us).pushTime off t).lastTimePacketArrived
      = latest (held off (us ++ [t])) := by
    rw [hw]; exact Search.search_append_replicate _ _ _ _
  obtain ⟨h1, h2⟩ := getNewSlotSize_of_isUpdate hp
  rw [he, hl] at h1 h2
  rw [hsz] at h1
  rw [nextPacket_packetSize, nextPacket_startTime]
  exact ⟨h1, h2⟩

/-! ## Between updates -/

variable {times : List Int}

/-- A packet that is no update leaves size and start time alone. -/
theorem nextPacket_of_not_isUpdate {t : Int} (h : ¬ (s.pushTime off t).isUpdate) :
    (s.nextPacket off t).startTime = s.startTime ∧
      (s.nextPacket off t).packetSize = s.packetSize := by
  rw [nextPacket, getNewSlotSize, if_neg h]
  exact ⟨rfl, rfl⟩

theorem receive_take_succ {k : Nat} (hk : 0 < k) (hlt : k < times.length) :
    s.receive off (times.take (k + 1)) =
      (s.receive off (times.take k)).nextPacket off times[k] := by
  rw [List.take_succ_eq_append_getElem hlt, receive_append_singleton]
  intro hnil
  have := congrArg List.length hnil
  rw [List.length_take, List.length_nil] at this
  omega

/-- Between two updates neither size nor start time changes. -/
theorem receive_steady (hs : s.Fresh) {i : Nat} (hi : 0 < i) : ∀ {j : Nat}, i ≤ j →
    j ≤ times.length → (∀ k, i < k → k ≤ j → k % updateIntervall ≠ 2) →
    (s.receive off (times.take j)).startTime = (s.receive off (times.take i)).startTime ∧
      (s.receive off (times.take j)).packetSize = (s.receive off (times.take i)).packetSize
  | 0, hij, _, _ => absurd hi (by omega)
  | j + 1, hij, hj, hno => by
    by_cases heq : i = j + 1
    · subst heq
      exact ⟨rfl, rfl⟩
    · have ih := receive_steady hs hi (j := j) (by omega) (by omega)
        fun k hk hkj => hno k hk (by omega)
      have hnot : ¬ ((s.receive off (times.take j)).pushTime off times[j]).isUpdate := by
        show ¬ ((s.receive off (times.take j)).numberPackets + 1) % updateIntervall = 2
        rw [receive_numberPackets off hs, List.length_take, Nat.min_eq_left (by omega)]
        exact hno (j + 1) (by omega) (Nat.le_refl _)
      obtain ⟨h1, h2⟩ := nextPacket_of_not_isUpdate hnot
      rw [receive_take_succ (by omega) hj, h1, h2]
      exact ih

end TsnStream

end CooperativeTsn
