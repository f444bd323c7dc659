import Chromeless.LibRuns
import Mathlib.Algebra.Order.BigOperators.Group.List
import Mathlib.Algebra.Order.Ring.Nat
import Mathlib.Algebra.Order.Ring.Rat

/-! The encoder that runs one inner encoder per simulcast layer (`simulcast_factory.cc`): how it derives
its ladder, how it starts over when the source changes its size, and to whom the layers' output goes. -/
namespace Chromeless.Simulcast
open Runs List Prod

structure SimulcastStream where
  width : ℕ := 0
  height : ℕ := 0
  maxFramerate : ℕ := 0
  targetBitrate : ℕ := 0
deriving DecidableEq

/-- `rest` has the fields that are copied to the layers as they are; none of them is set in a blank
codec. -/
structure VideoCodec (ρ : Type*) where
  width : ℕ := 0
  height : ℕ := 0
  maxFramerate : ℕ := 0
  maxBitrate : ℕ := 0
  startBitrate : ℕ := 0
  numberOfSimulcastStreams : ℕ := 0
  simulcastStream : List SimulcastStream := []
  rest : Option ρ := none
deriving DecidableEq

/-- The rid is the word "layer" with this number. -/
structure SimulcastLayer where
  rid : ℕ
  scaleResolutionDownBy : ℕ
  maxFramerateFps : ℕ
  maxBitrateBps : ℕ
deriving DecidableEq

variable {ρ κ : Type*}

/-- From the highest layer to the lowest, which is the other order than the codec's. -/
def simulcastLayersFromCodec (codec : VideoCodec ρ) : List SimulcastLayer :=
  match (codec.simulcastStream.take codec.numberOfSimulcastStreams).reverse with
  | [] => []
  | top :: lower =>
    if top.width = 0 ∨ top.height = 0 then []
    else (top :: lower).mapIdx fun i s =>
      { rid := i
        scaleResolutionDownBy := if i = 0 then 1 else if s.width > 0 then max 1 (top.width / s.width) else 1
        maxFramerateFps := s.maxFramerate
        maxBitrateBps := s.targetBitrate * 1000 }

/-- The ladder of an encoder that was made without one. -/
def deriveLayers (codec : VideoCodec ρ) : List SimulcastLayer :=
  let layers := if 2 ≤ codec.numberOfSimulcastStreams then simulcastLayersFromCodec codec else []
  if layers = [] then [⟨0, 1, codec.maxFramerate, codec.maxBitrate * 1000⟩] else layers

structure LayerState (ρ : Type*) where
  config : SimulcastLayer
  codec : VideoCodec ρ

inductive Code
  | ok | uninitialized | error | errParameter
deriving DecidableEq

structure SimulcastEncoder (ρ κ : Type*) where
  layers : List SimulcastLayer := []
  states : List (LayerState ρ) := []
  outerCallback : Option κ := none
  initialized : Bool := false
  sourceWidth : ℕ := 0
  sourceHeight : ℕ := 0

/-- The size of a layer, which is even. -/
def layerSize (source : ℕ) (layer : SimulcastLayer) : ℕ :=
  let size := max 2 (source / max 1 layer.scaleResolutionDownBy)
  size - size % 2

def layerCodec (codec : VideoCodec ρ) (layer : SimulcastLayer) : VideoCodec ρ :=
  let maxBitrate := if layer.maxBitrateBps > 0 then layer.maxBitrateBps / 1000 else codec.maxBitrate
  { codec with
    width := layerSize codec.width layer
    height := layerSize codec.height layer
    maxFramerate := if layer.maxFramerateFps > 0 then layer.maxFramerateFps else codec.maxFramerate
    maxBitrate := maxBitrate
    startBitrate := if layer.maxBitrateBps > 0 then min maxBitrate codec.startBitrate else codec.startBitrate
    numberOfSimulcastStreams := 0 }

namespace SimulcastEncoder
-- whether the inner encoder of a layer can be built and initialised
variable (accepts : SimulcastLayer → VideoCodec ρ → Bool) (e : SimulcastEncoder ρ κ)

/-- The layers that are there stay. -/
def ladder (codec : VideoCodec ρ) : List SimulcastLayer :=
  if e.layers = [] then deriveLayers codec else e.layers

def initEncode (codec : VideoCodec ρ) : Code × SimulcastEncoder ρ κ :=
  if codec.width = 0 ∨ codec.height = 0 then (.errParameter, e)
  else
    let e := { e with
      layers := e.ladder codec
      sourceWidth := codec.width
      sourceHeight := codec.height }
    if e.layers.all fun layer => accepts layer (layerCodec codec layer) then
      (.ok, { e with
        states := e.layers.map fun layer => ⟨layer, layerCodec codec layer⟩
        initialized := true })
    else (.error, { e with states := [] })

def release : SimulcastEncoder ρ κ :=
  { e with states := [], outerCallback := none, initialized := false }

/-- The output of the inner encoders, handed on with the index of the layer. -/
def onEncodedImage : List (ℕ × κ) :=
  match e.outerCallback with
  | none => []
  | some k => (range e.states.length).map (·, k)

def encode (frame : ℕ × ℕ) : Code × SimulcastEncoder ρ κ × List (ℕ × κ) :=
  if !e.initialized || e.outerCallback.isNone then (.uninitialized, e, [])
  else
    let (code, e) :=
      if frame ≠ (e.sourceWidth, e.sourceHeight) then
        e.release.initEncode accepts
          { width := frame.1, height := frame.2, numberOfSimulcastStreams := e.layers.length }
      else (.ok, e)
    if code ≠ .ok then (.error, e, [])
    else (.ok, e, e.onEncodedImage)

def step (frame : ℕ × ℕ) : SimulcastEncoder ρ κ := (e.encode accepts frame).2.1

/-- Initialised with a codec, with a callback registered; without layers the ladder is derived. -/
def start (layers : List SimulcastLayer) (codec : VideoCodec ρ) (k : κ) : SimulcastEncoder ρ κ :=
  { (initEncode accepts ({ layers } : SimulcastEncoder ρ κ) codec).2 with outerCallback := some k }

def settings : List (VideoCodec ρ) := e.states.map fun s => { s.codec with width := 0, height := 0 }

/-- The frame gives every layer's output to `k` and leaves the settings of `e₀`, up to the sizes. -/
def Keeps (e₀ : SimulcastEncoder ρ κ) (k : κ) (frame : ℕ × ℕ) : Prop :=
  (e.encode accepts frame).1 = .ok ∧
    (e.encode accepts frame).2.2 = (range e₀.layers.length).map (·, k) ∧
    (e.step accepts frame).settings = e₀.settings

structure Started (codec : VideoCodec ρ) (k : κ) : Prop where
  layers : e.layers ≠ []
  states : e.states.length = e.layers.length
  initialized : e.initialized = true
  outerCallback : e.outerCallback = some k
  source : (e.sourceWidth, e.sourceHeight) = (codec.width, codec.height)

variable {accepts e}

theorem initEncode_snd (codec : VideoCodec ρ) :
    (e.initEncode accepts codec).2.outerCallback = e.outerCallback ∧
      (e.initEncode accepts codec).2.layers =
        if codec.width = 0 ∨ codec.height = 0 then e.layers else e.ladder codec := by
  unfold initEncode
  split
  · exact ⟨rfl, rfl⟩
  · dsimp only
    split <;> exact ⟨rfl, rfl⟩

theorem step_layers (frame : ℕ × ℕ) (h : e.layers ≠ []) : (e.step accepts frame).layers = e.layers := by
  unfold step encode
  split
  · rfl
  by_cases hf : frame = (e.sourceWidth, e.sourceHeight)
  · simp [hf]
  · simp only [ne_eq, hf, not_false_eq_true, ↓reduceIte]
    split <;> simp [initEncode_snd, ladder, release, h]

theorem deriveLayers_ne_nil (codec : VideoCodec ρ) : deriveLayers codec ≠ [] := by
  unfold deriveLayers
  extract_lets layers
  split
  · simp
  · assumption

theorem start_eq (layers : List SimulcastLayer) (codec : VideoCodec ρ) (k : κ)
    (h : (initEncode accepts ({ layers } : SimulcastEncoder ρ κ) codec).1 = .ok) :
    let ladder := ladder ({ layers } : SimulcastEncoder ρ κ) codec
    start accepts layers codec k =
      ⟨ladder, ladder.map fun layer => ⟨layer, layerCodec codec layer⟩, some k, true, codec.width, codec.height⟩ := by
  unfold start
  unfold initEncode at h ⊢
  split at h
  · cases h
  rename_i hsize
  simp only [hsize, ↓reduceIte] at h ⊢
  split at h
  · rename_i hall
    simp [hall]
  · cases h

theorem start_started (layers : List SimulcastLayer) (codec : VideoCodec ρ) (k : κ)
    (h : (initEncode accepts ({ layers } : SimulcastEncoder ρ κ) codec).1 = .ok) :
    (start accepts layers codec k).Started codec k := by
  rw [start_eq layers codec k h]
  refine ⟨?_, by simp, rfl, rfl, rfl⟩
  dsimp only [ladder]
  split
  · exact deriveLayers_ne_nil codec
  · assumption

variable {codec : VideoCodec ρ} {k : κ}

section
variable (h : e.Started codec k)
include h

theorem encode_same : e.encode accepts (codec.width, codec.height) = (.ok, e, (range e.layers.length).map (·, k)) := by
  simp [encode, onEncodedImage, h.initialized, h.outerCallback, h.source, h.states]

/-- A frame of another size: the callback is gone when the layers give their output. -/
theorem encode_resized {frame : ℕ × ℕ}
    (hf : frame ≠ (codec.width, codec.height)) : (e.encode accepts frame).2.2 = [] := by
  simp only [encode, h.initialized, h.outerCallback, h.source, ne_eq, hf, not_false_eq_true, ↓reduceIte,
    onEncodedImage, initEncode_snd, release]
  split
  · rfl
  · split <;> rfl

theorem keeps_iff (frame : ℕ × ℕ) :
    e.Keeps accepts e k frame ↔ frame = (codec.width, codec.height) := by
  constructor
  · rintro ⟨_, hout, _⟩
    by_contra hf
    rw [encode_resized h hf] at hout
    simpa [h.layers] using hout.symm
  · rintro rfl
    simp [Keeps, step, encode_same h]

theorem meets_keeps_iff (frames : List (ℕ × ℕ)) :
    Meets (step accepts) (Keeps accepts · e k) e frames ↔ ∀ f ∈ frames, f = (codec.width, codec.height) := by
  induction frames with
  | nil => simp [Meets]
  | cons f fs ih =>
    simp only [Meets, keeps_iff h, forall_mem_cons]
    refine and_congr_right fun hf => ?_
    rw [hf, step, encode_same h]
    exact ih

end

theorem resize_keeps_iff (accepts : SimulcastLayer → VideoCodec ρ → Bool)
    (layers : List SimulcastLayer) (codec s : VideoCodec ρ) (k : κ) (frames : List (ℕ × ℕ))
    (hinit : (initEncode accepts ({ layers } : SimulcastEncoder ρ κ) codec).1 = .ok)
    (hs : s.width ≠ 0 ∧ s.height ≠ 0) :
    let e := start accepts layers codec k
    (Meets (step accepts) (Keeps accepts · e k) e frames ∧
      ((run (step accepts) e frames).release.initEncode accepts s).2.layers =
        (initEncode accepts ({} : SimulcastEncoder ρ κ) s).2.layers) ↔
    (∀ f ∈ frames, f = (codec.width, codec.height)) ∧ e.layers = deriveLayers s := by
  intro e
  have hstart : e.Started codec k := start_started layers codec k hinit
  have hlayers : (run (step accepts) e frames).layers = e.layers :=
    invariant_run (step accepts) (fun t => t.layers = e.layers)
      (fun t f ht => (step_layers f (by rw [ht]; exact hstart.layers)).trans ht) rfl frames
  rw [meets_keeps_iff hstart, (initEncode_snd s).2, (initEncode_snd s).2]
  simp [ladder, hs.1, hs.2, release, hlayers, hstart.layers]

/-! ### Rates -/

def kMaxTemporalStreams : ℕ := 4
def kMaxSpatialLayers : ℕ := 5
def kMaxSimulcastStreams : ℕ := 3

/-- `bitrate j l` is the allocation's bitrate of spatial index `j` and temporal index `l`. -/
def layerBitrate (bitrate : ℕ → ℕ → ℕ) (j : ℕ) : ℕ :=
  ((range kMaxTemporalStreams).map (bitrate j)).sum

def totalBitrate (bitrate : ℕ → ℕ → ℕ) : ℕ :=
  ((range kMaxSpatialLayers).map (layerBitrate bitrate)).sum

/-- The bitrate and the framerate for each layer's encoder. -/
def setRates (e : SimulcastEncoder ρ κ) (bitrate : ℕ → ℕ → ℕ) (framerateFps : ℚ) : List (ℕ × ℚ) :=
  e.states.mapIdx fun i s =>
    let sum := layerBitrate bitrate (e.states.length - 1 - i)
    (if sum = 0 ∧ s.config.maxBitrateBps > 0 then s.config.maxBitrateBps else sum,
      if s.config.maxFramerateFps > 0 then min framerateFps s.config.maxFramerateFps else framerateFps)

/-- Whether the layer whose images are tagged `i` is the one made from the `i`-th of `n` streams, whose rid is
counted from the other end, and is given the bitrate of that index. -/
def Matches (e : SimulcastEncoder ρ κ) (bitrate : ℕ → ℕ → ℕ) (framerateFps : ℚ) (n i : ℕ) : Prop :=
  e.states[i]?.map (·.config.rid) = some (n - 1 - i) ∧
    (e.setRates bitrate framerateFps)[i]?.map fst = some (layerBitrate bitrate i)

theorem simulcastLayersFromCodec_eq {codec : VideoCodec ρ} (h : simulcastLayersFromCodec codec ≠ []) :
    (simulcastLayersFromCodec codec).map (fun l => (l.rid, l.maxBitrateBps)) =
      (codec.simulcastStream.take codec.numberOfSimulcastStreams).reverse.mapIdx
        fun i s => (i, s.targetBitrate * 1000) := by
  unfold simulcastLayersFromCodec at h ⊢
  split
  · rename_i hnil
    rw [hnil] at h
    exact absurd rfl h
  rename_i top lower hrev
  rw [hrev] at h ⊢
  dsimp only at h ⊢
  split
  · rename_i hsize
    rw [if_pos hsize] at h
    exact absurd rfl h
  · exact ext_getElem (by simp) fun i _ _ => by simp only [getElem_map, getElem_mapIdx]

/-- The layers come in the other order than their tags: a tag and a stream match in the middle only. -/
theorem tags_match_iff (accepts : SimulcastLayer → VideoCodec ρ → Bool) (codec : VideoCodec ρ) (k : κ)
    (bitrate : ℕ → ℕ → ℕ) (framerateFps : ℚ) (streams : List SimulcastStream)
    (hstreams : streams = codec.simulcastStream.take codec.numberOfSimulcastStreams)
    (hn : 2 ≤ codec.numberOfSimulcastStreams) (hmax : codec.simulcastStream.length = kMaxSimulcastStreams)
    (hlayers : simulcastLayersFromCodec codec ≠ [])
    (hinit : (initEncode accepts ({} : SimulcastEncoder ρ κ) codec).1 = .ok) :
    let e := start accepts [] codec k
    (∀ i s, streams[i]? = some s → (e.Matches bitrate framerateFps streams.length i ↔
      2 * i + 1 = streams.length ∧ (layerBitrate bitrate i ≠ 0 ∨ s.targetBitrate = 0))) ∧
    ((∀ i s, streams[i]? = some s → layerBitrate bitrate i ≠ 0 ∨ s.targetBitrate = 0) →
      ((e.setRates bitrate framerateFps).map fst).sum ≤ totalBitrate bitrate) := by
  intro e
  have hladder : ladder ({} : SimulcastEncoder ρ κ) codec = simulcastLayersFromCodec codec := by
    simp [ladder, deriveLayers, hn, hlayers]
  have hstates : e.states.map (fun s => (s.config.rid, s.config.maxBitrateBps)) =
      streams.reverse.mapIdx fun i s => (i, s.targetBitrate * 1000) := by
    rw [hstreams, ← simulcastLayersFromCodec_eq hlayers, ← hladder]
    simp [e, start_eq [] codec k hinit]
  have hlength : e.states.length = streams.length := by simpa using congrArg length hstates
  have hstate (i) (hi : i < streams.length) : ∃ s state, streams[streams.length - 1 - i]? = some s ∧
      e.states[i]? = some state ∧ state.config.rid = i ∧ state.config.maxBitrateBps = s.targetBitrate * 1000 := by
    have hget := congrArg (·[i]?) hstates
    simp only [getElem?_map, getElem?_mapIdx, getElem?_reverse hi] at hget
    rw [getElem?_eq_getElem (by omega), getElem?_eq_getElem (by omega)] at hget ⊢
    obtain ⟨hrid, hbps⟩ := Prod.mk.inj (Option.some.inj hget)
    exact ⟨_, _, rfl, rfl, hrid, hbps⟩
  refine ⟨fun i s hs => ?_, fun hrates => ?_⟩
  · obtain ⟨hi, -⟩ := List.getElem?_eq_some_iff.mp hs
    obtain ⟨s', state, hs', hget, hrid, hbps⟩ := hstate i hi
    simp only [Matches, setRates, getElem?_mapIdx, hget, Option.map_some, Option.some.injEq, hrid, hbps, hlength]
    constructor
    · rintro ⟨hmid, hrate⟩
      rw [← hmid] at hs' hrate
      obtain rfl := Option.some.inj (hs.symm.trans hs')
      split at hrate <;> omega
    · rintro ⟨hmid, hrate⟩
      obtain hi' : streams.length - 1 - i = i := by omega
      rw [hi'] at hs' ⊢
      obtain rfl := Option.some.inj (hs.symm.trans hs')
      exact ⟨rfl, if_neg (by omega)⟩
  · have hsums : (e.setRates bitrate framerateFps).map fst =
        ((range streams.length).map (layerBitrate bitrate)).reverse := by
      refine ext_getElem (by simp [setRates, hlength]) fun i hi _ => ?_
      replace hi : i < streams.length := by simpa [setRates, hlength] using hi
      obtain ⟨s, state, hs, hget, -, hbps⟩ := hstate i hi
      obtain ⟨hi', hget⟩ := List.getElem?_eq_some_iff.mp hget
      have hrate := hrates _ s hs
      simp only [setRates, getElem_map, getElem_mapIdx, hget, hbps, hlength, getElem_reverse,
        length_map, length_range, getElem_range]
      exact if_neg (by omega)
    have hle : streams.length ≤ kMaxSpatialLayers := by
      rw [hstreams, length_take, hmax]
      exact Nat.le_trans (Nat.min_le_right ..) (by decide)
    rw [hsums, sum_reverse]
    exact ((range_sublist.mpr hle).map _).sum_le_sum fun _ _ => Nat.zero_le _

def threeStreams : VideoCodec ℕ :=
  ⟨640, 360, 30, 900, 300, 3, [⟨160, 90, 30, 100⟩, ⟨320, 180, 30, 200⟩, ⟨640, 360, 30, 700⟩], none⟩

theorem tags_match_iff_middle :
    (start (fun _ _ => true) [] threeStreams 5).Matches (fun j _ => 50 * (j + 1)) 30 3 1 :=
  ((tags_match_iff (fun _ _ => true) threeStreams 5 (fun j _ => 50 * (j + 1)) 30 _ rfl (by decide) rfl
    (by decide) rfl).1 1 _ rfl).mpr ⟨rfl, .inl (by decide)⟩

/-- The layer with the tag 0 is made from the last of three streams. Without an allocation the layers are given
their ceilings. -/
theorem tags_reversed :
    let e := start (fun _ _ => true) [] threeStreams 5
    e.states.map (fun s => (s.config.rid, s.codec.width)) = [(0, 640), (1, 320), (2, 160)] ∧
      e.setRates (fun j l => if l = 0 then j + 1 else 0) 30 = [(3, 30), (2, 30), (1, 30)] ∧
      ((e.setRates (fun _ _ => 0) 30).map fst).sum = 1000000 ∧ totalBitrate (fun _ _ => 0) = 0 := by
  decide +kernel


def twoStreams : VideoCodec ℕ :=
  ⟨640, 360, 30, 900, 300, 2, [⟨320, 180, 30, 200⟩, ⟨640, 360, 30, 700⟩], some 1⟩

/-- No frame of another size and the same codec again. -/
theorem resize_keeps_iff_same :
    ((start (fun _ _ => true) [] twoStreams 5).encode (fun _ _ => true) (640, 360)).2.2 = [(0, 5), (1, 5)] :=
  ((resize_keeps_iff (fun _ _ => true) [] twoStreams twoStreams 5 [(640, 360)] rfl
    ⟨by decide, by decide⟩).mpr ⟨by decide, by decide⟩).1.1.2.1

/-- One frame of another size: the callback hears nothing, the next frame is refused and the settings are
blank. A new codec with one stream gets the two layers of the codec before it. -/
theorem resize_loses :
    let e := start (fun _ _ => true) [] twoStreams 5
    let e' := e.step (fun _ _ => true) (800, 600)
    (e.encode (fun _ _ => true) (800, 600)).2.2 = [] ∧
      (e'.encode (fun _ _ => true) (800, 600)).1 = .uninitialized ∧
      e'.settings.map (·.rest) = [none, none] ∧
      (e.release.initEncode (fun _ _ => true)
        { twoStreams with numberOfSimulcastStreams := 1 }).2.layers.length = 2 := by
  decide

end SimulcastEncoder

end Chromeless.Simulcast
