import Spaznet.Http3.History
import Spaznet.Quic.Connection.Plain
import Spaznet.Quic.Stream.Content

/-!
# A request stream that carries a content

The peer sends slices of one content on the stream, in any order and with any repetition, and the
FIN at its end. However the frames and the calls of `pump` follow each other, the handler is called
with the request of the whole content or not at all.
-/

namespace Spaznet.Http3

open List PendingRequest
open Quic (Bytes Connection Action Run Stream StreamFrame ResetStreamFrame)
open Quic.Connection (streamDelivery resetDelivery)
open Ranges (IsSlice)

/-! ## Carrying -/

def streamFrame? : Action → Option StreamFrame
  | .frame _ (.stream f) => some f
  | _ => none

def resetFrame? : Action → Option ResetStreamFrame
  | .frame _ (.resetStream f) => some f
  | _ => none

def finReceived (id : Nat) (past : List (Connection × Action)) : Bool :=
  past.any fun y => (streamFrame? y.2).any fun f => f.streamId = id && f.fin

/-- The stream carries `content`: STREAM frames hold slices of it and the FIN at its end, and a
RESET_STREAM frame at the point up to which was read comes only when the final size is known. -/
def Carries (content : Bytes) (id : Nat) (y : Connection × Action)
    (past : List (Connection × Action)) : Prop :=
  (∀ f ∈ streamFrame? y.2, f.streamId = id → IsSlice content f.offset f.data ∧
    (f.fin = true → f.offset + f.data.length = content.length)) ∧
  ∀ f ∈ resetFrame? y.2, f.streamId = id → f.finalSize = (readBytes id past).length →
    ((y.1.findStream id).bind Stream.recvFinalSize).isSome = true
  deriving Decidable

variable {content : Bytes} {id : Nat} {past : List (Connection × Action)} {pr pr' : PendingRequest}

theorem finReceived_cons (h : finReceived id past = true) (y : Connection × Action) :
    finReceived id (y :: past) = true := by
  rw [finReceived, any_cons, Bool.or_eq_true]
  exact .inr h

/-! ## What is kept -/

/-- As much of the content was read as the cursor says, the request follows it, and once the end is
reported, it is the whole content. -/
structure Tracks (content : Bytes) (id : Nat) (o : Option Stream)
    (past : List (Connection × Action)) (pr : PendingRequest) : Prop where
  receiving : ∀ s ∈ o, s.Receiving content (finReceived id past = true)
  read : readBytes id past = content.take (o.elim 0 Stream.recvReadOffset)
  whole : ended id past = true → readBytes id past = content ∧ finReceived id past = true
  finSeen : pr.finSeen = ended id past
  follows : pr.Follows (readBytes id past)
  waits : WellFormed content → ended id past = true → ¬ Opens content

def CalledWith (content : Bytes) (id : Nat) (req : Http3Request)
    (past : List (Connection × Action)) : Prop :=
  req = requestOf content ∧ Opens content ∧ readBytes id past = content ∧
    finReceived id past = true

theorem tracks_nil (content : Bytes) (id : Nat) : Tracks content id none [] {} where
  receiving := nofun
  read := rfl
  whole := nofun
  finSeen := rfl
  follows := follows_nil
  waits _ := nofun

namespace Tracks

variable {c : Connection}

theorem quiet (h : Tracks content id o past pr) (hread : readAt id y = ([], false))
    (ho : ∀ s ∈ o', s.Receiving content (finReceived id (y :: past) = true))
    (hcursor : o'.elim 0 Stream.recvReadOffset = o.elim 0 Stream.recvReadOffset) :
    Tracks content id o' (y :: past) pr := by
  have hbytes := readBytes_cons_of_nothing hread past
  have hended := ended_cons_of_nothing hread past
  refine ⟨ho, ?_, fun he => ?_, ?_, ?_, fun hwell he => ?_⟩
  · rw [hbytes, hcursor, h.read]
  · rw [hended] at he
    rw [hbytes]
    exact ⟨(h.whole he).1, finReceived_cons (h.whole he).2 y⟩
  · rw [hended, h.finSeen]
  · rw [hbytes]
    exact h.follows
  · rw [hended] at he
    exact h.waits hwell he

section
variable (h : Tracks content id (c.findStream id) past pr)
include h

theorem streamOrNew (y : Connection × Action) :
    (c.streamOrNew id).Receiving content (finReceived id (y :: past) = true) ∧
      (c.streamOrNew id).recvReadOffset = (c.findStream id).elim 0 Stream.recvReadOffset := by
  unfold Connection.streamOrNew
  cases hs : c.findStream id with
  | none => exact ⟨⟨Nat.zero_le _, .nil, nofun⟩, rfl⟩
  | some s => exact ⟨(h.receiving s hs).mono fun hfin => finReceived_cons hfin y, rfl⟩

end

theorem other (hlen : content.length < 2 ^ 64) (hkept : Kept c id a o)
    (hread : readAt id (c, a) = ([], false)) (hcarries : Carries content id (c, a) past)
    (h : Tracks content id (c.findStream id) past pr) :
    Tracks content id o ((c, a) :: past) pr := by
  cases hkept with
  | same =>
    exact h.quiet hread
      (fun s hs => (h.receiving s hs).mono fun hfin => finReceived_cons hfin _) rfl
  | outbound hs heq =>
    obtain ⟨hchunks, hoffset, hfinal, hstate⟩ : _ = _ ∧ _ = _ ∧ _ = _ ∧ _ = _ := by
      simpa only [receiveSide, Prod.mk.injEq] using heq
    have hbefore := h.receiving _ hs
    refine h.quiet hread (fun s hs' => ?_) ?_
    · cases hs'
      refine Stream.Receiving.mono ?_ fun hfin => finReceived_cons hfin _
      refine ⟨?_, ?_, ?_⟩
      · rw [hoffset]
        exact hbefore.read_le
      · rw [hchunks, hoffset]
        exact hbefore.chunks
      · rw [hchunks, hoffset, hfinal, hstate]
        exact hbefore.final
    · rw [hs]
      exact hoffset
  | @delivered level f hid =>
    subst hid
    obtain ⟨hreceiving, hcursor⟩ := h.streamOrNew (c, .frame level (.stream f))
    obtain ⟨hslice, hend⟩ := hcarries.1 f rfl rfl
    refine h.quiet hread (fun s hs => ?_) ?_
    · cases hs
      unfold Connection.streamAfter
      split
      · refine hreceiving.deliver hlen hslice fun hfin => ⟨hend hfin, ?_⟩
        have hthis : (decide (f.streamId = f.streamId) && f.fin) = true := by
          rw [decide_eq_true rfl, hfin, Bool.and_self]
        rw [finReceived, any_cons, Bool.or_eq_true]
        exact .inl hthis
      · exact hreceiving
    · rw [← hcursor]
      unfold Connection.streamAfter
      split
      · exact Stream.recvReadOffset_deliver _ _ _ _
      · rfl
  | @reset level f hid =>
    subst hid
    obtain ⟨hreceiving, hcursor⟩ := h.streamOrNew (c, .frame level (.resetStream f))
    have hlength : (readBytes f.streamId past).length = (c.streamOrNew f.streamId).recvReadOffset := by
      rw [h.read, ← hcursor, length_take, Nat.min_eq_left hreceiving.read_le]
    refine h.quiet hread (fun s hs => ?_) ?_
    · cases hs
      unfold Connection.streamAfter
      split
      · refine hreceiving.resetRecvd fun hat => ?_
        have hknown := hcarries.2 f rfl rfl (hat.trans hlength.symm)
        unfold Connection.streamOrNew
        cases hs : c.findStream f.streamId with
        | none =>
          rw [hs] at hknown
          cases hknown
        | some s =>
          rw [hs] at hknown
          exact Option.isSome_iff_ne_none.mp hknown
      · exact hreceiving
    · rw [← hcursor]
      unfold Connection.streamAfter
      split
      · exact Stream.recvReadOffset_resetRecvd _ _ _
      · rfl

/-- What a read does to the stream and to what was read. -/
structure Reading (content : Bytes) (id : Nat) (s : Stream) (past : List (Connection × Action))
    (past' : List (Connection × Action)) : Prop where
  receiving : s.readContiguous.2.Receiving content (finReceived id past' = true)
  bytes : readBytes id past' = readBytes id past ++ s.readContiguous.1.1
  read : readBytes id past' = content.take s.readContiguous.2.recvReadOffset
  ended : ended id past' = (s.readContiguous.1.2 || ended id past)
  whole : Http3.ended id past' = true → readBytes id past' = content ∧ finReceived id past' = true

section
variable (h : Tracks content id (some s) past pr)
include h

theorem reading (hread : readAt id (c, a) = s.readContiguous.1) :
    Reading content id s past ((c, a) :: past) := by
  obtain ⟨hreceiving, htake, hfin⟩ :=
    ((h.receiving s rfl).mono fun hfin => finReceived_cons hfin (c, a)).readContiguous
  have hbytes : readBytes id ((c, a) :: past) = readBytes id past ++ s.readContiguous.1.1 := by
    rw [readBytes, hread]
  have hread' : readBytes id ((c, a) :: past) =
      content.take s.readContiguous.2.recvReadOffset := by
    rw [hbytes, h.read]
    exact htake
  have hended : ended id ((c, a) :: past) = (s.readContiguous.1.2 || ended id past) := by
    rw [ended, any_cons, hread, ended]
  refine ⟨hreceiving, hbytes, hread', hended, fun he => ?_⟩
  rw [hended, Bool.or_eq_true] at he
  obtain hnow | hbefore := he
  · obtain ⟨hcursor, hfinished⟩ := hfin hnow
    rw [hread', hcursor, take_length]
    exact ⟨rfl, hfinished⟩
  -- All was read before: there was nothing left to read.
  obtain ⟨hall, hfinished⟩ := h.whole hbefore
  refine ⟨?_, finReceived_cons hfinished _⟩
  have hle : (readBytes id ((c, a) :: past)).length ≤ content.length := by
    rw [hread']
    exact length_take_le' ..
  rw [hbytes, hall, length_append] at hle
  have hnil : s.readContiguous.1.1 = [] := eq_nil_of_length_eq_zero (by omega)
  rw [hbytes, hall, hnil, append_nil]

theorem idle
    (hread : readAt id (c, a) = s.readContiguous.1) (hnothing : s.readContiguous.1 = ([], false)) :
    Tracks content id (some s.readContiguous.2) ((c, a) :: past) pr := by
  have hr := h.reading hread
  have hended : ended id ((c, a) :: past) = ended id past := by
    rw [hr.ended, hnothing, Bool.false_or]
  refine ⟨fun t ht => ?_, hr.read, hr.whole, ?_, ?_, ?_⟩
  · cases ht
    exact hr.receiving
  · rw [hended, h.finSeen]
  · rw [hr.bytes, hnothing, append_nil]
    exact h.follows
  · rw [hended]
    exact h.waits

section
variable (hlimit : content.length ≤ kMaxRequestStreamBytes)
  (hread : readAt id (c, a) = s.readContiguous.1)
include hlimit hread

theorem fed (hfeed : pr.feed s.readContiguous.1.1 s.readContiguous.1.2 = (pr', stop)) :
    PendingRequest.Fed (readBytes id ((c, a) :: past)) pr s.readContiguous.1.2 pr' stop ∧
      pr'.finSeen = ended id ((c, a) :: past) := by
  have hr := h.reading hread
  have hle : (readBytes id ((c, a) :: past)).length ≤ content.length := by
    rw [hr.read]
    exact length_take_le' ..
  rw [hr.bytes] at hle ⊢
  have hfed := h.follows.feed (hle.trans hlimit) hfeed
  refine ⟨hfed, ?_⟩
  rw [hfed.finSeen, h.finSeen, hr.ended, Bool.or_comm]

theorem stored (hnew : pr.handled = false)
    (hfeed : pr.feed s.readContiguous.1.1 s.readContiguous.1.2 = (pr', stop))
    (hwaits : stop = .dry → pr'.ready = false) :
    Tracks content id (some s.readContiguous.2) ((c, a) :: past) pr' := by
  have hr := h.reading hread
  obtain ⟨hfed, hfinSeen⟩ := h.fed hlimit hread hfeed
  refine ⟨fun t ht => ?_, hr.read, hr.whole, hfinSeen, hfed.follows, fun hwell he hopens => ?_⟩
  · cases ht
    exact hr.receiving
  · have hall := (hr.whole he).1
    rw [hall] at hfed
    have hdry := hfed.sound hwell.2
    have hparsed := (hfed.follows.request (hfed.dry hdry)).2.mpr hopens
    have hhandled : pr'.handled = false := (handled_feed hfeed).trans hnew
    have hready := hwaits hdry
    rw [ready, hparsed, hfinSeen, he, hhandled] at hready
    cases hready

theorem called (hfeed : pr.feed s.readContiguous.1.1 s.readContiguous.1.2 = (pr', .dry))
    (hready : pr'.ready = true) : CalledWith content id pr'.req ((c, a) :: past) := by
  have hr := h.reading hread
  obtain ⟨hfed, hfinSeen⟩ := h.fed hlimit hread hfeed
  unfold ready at hready
  rw [Bool.and_eq_true, Bool.and_eq_true] at hready
  obtain ⟨⟨hparsed, hseen⟩, -⟩ := hready
  obtain ⟨hall, hfinished⟩ := hr.whole (hfinSeen.symm.trans hseen)
  rw [hall] at hfed
  obtain ⟨hreq, hopens⟩ := hfed.follows.request (hfed.dry rfl)
  exact ⟨hreq, hopens.mp hparsed, hall, hfinished⟩

end

end

/-- **A stream that carries a content, step by step.** -/
theorem watch (id : Nat) (hlimit : content.length ≤ kMaxRequestStreamBytes) :
    Watch id (Carries content id) (Tracks content id) (CalledWith content id) where
  other hkept hread hcarries h :=
    h.other (Nat.lt_of_le_of_lt hlimit (by decide)) hkept hread hcarries
  idle hread _ hnothing _ h := h.idle hread hnothing
  stored hread _ hnew hfeed hwaits _ h := h.stored hlimit hread hnew hfeed hwaits
  called hread _ _ hfeed hready _ h := h.called hlimit hread hfeed hready

end Tracks

/-- **A stream that carries a content.** -/
theorem watching_of_carries (w : Setting) (hid : isRequestStream id = true)
    (hlimit : content.length ≤ kMaxRequestStreamBytes)
    (hcarries : Run.AtEach (Carries content id) w.run.run.trace) :
    Watching id (Tracks content id) (CalledWith content id) w.run :=
  (Tracks.watch id hlimit).ofEvents hid rfl (tracks_nil content id) w.events hcarries

/-! ## A connection without encryption -/

/-- A client may open two request streams at a time. -/
def plain (events : List Endpoint.Event) : Setting where
  env := .plainEstablished { initialMaxData := 1000, initialMaxStreamDataBidiLocal := 1000 }
  handler _ _ := some {}
  clientDcid := []
  clientScid := []
  serverScid := []
  localTp :=
    { initialMaxData := 1000, initialMaxStreamsBidi := 2, initialMaxStreamDataBidiRemote := 1000 }
  events

def packet (pn : UInt8) (payload : Bytes) : Endpoint.Event :=
  .datagram ([0x40, pn] ++ payload ++ List.replicate 16 0)

def whole (content : Bytes) : Endpoint.Event := packet 0 ([0x09, 0] ++ content)

def getRequest : Bytes := [0x01, 0x03, 0x00, 0x00, 0xD1]

end Spaznet.Http3
