import Spaznet.Http3.Server

/-!
# The request on a stream

What `process_stream` makes of the bytes of a request stream. Frames are taken off the front as they
arrive. A field section that does not decode, or is too large, makes it give up for this time, but
the frame has been taken out by then: the next call goes on behind it.
-/

namespace Spaznet.Http3

open List
open Quic (Bytes)

/-- The fields of a section that is not too large. -/
def fieldsOf (section_ : Bytes) : Option HeaderList :=
  if section_.length > kMaxFieldSectionBytes then none else qpackDecode section_

namespace H3Frame

def opens : H3Frame → Bool
  | .headers section_ => (fieldsOf section_).isSome
  | _ => false

/-- No HEADERS frame whose fields are not decoded. -/
def sound : H3Frame → Bool
  | .headers section_ => (fieldsOf section_).isSome
  | _ => true

def payload : H3Frame → Bytes
  | .headers section_ => section_
  | .data bytes => bytes
  | _ => []

end H3Frame

/-- A frame whose fields are not decoded adds nothing. -/
def Http3Request.addFrame (req : Http3Request) : H3Frame → Http3Request
  | .headers section_ => match fieldsOf section_ with
    | none => req
    | some fields => req.addFields fields
  | .data data => { req with body := req.body ++ data }
  | _ => req

def requestOf (content : Bytes) : Http3Request :=
  (frames.items content).foldl Http3Request.addFrame {}

/-- The content consists of complete frames, and the fields of every HEADERS frame are decoded. -/
def WellFormed (content : Bytes) : Prop :=
  frames.rest content = [] ∧ ∀ f ∈ frames.items content, f.sound = true
  deriving Decidable

def Opens (content : Bytes) : Prop := ∃ f ∈ frames.items content, f.opens = true
  deriving Decidable

/-! ## Frames -/

/-- The bytes are those of the frames, whatever follows. -/
structure Comprises (used : Bytes) (fs : List H3Frame) : Prop where
  items : ∀ more, frames.items (used ++ more) = fs ++ frames.items more
  rest : ∀ more, frames.rest (used ++ more) = frames.rest more

theorem Comprises.nil : Comprises [] [] := ⟨fun _ => rfl, fun _ => rfl⟩

theorem Comprises.append (h : Comprises used fs) (h' : Comprises used' fs') :
    Comprises (used ++ used') (fs ++ fs') where
  items more := by rw [append_assoc, h.items, h'.items, append_assoc]
  rest more := by rw [append_assoc, h.rest, h'.rest]

theorem payload_parseBody (h : parseBody type body = some f) : f.payload.length ≤ body.length := by
  have hmap {α : Type} {o : Option α} {g : α → H3Frame} (hg : ∀ a, (g a).payload = [])
      (h : o.map g = some f) : f.payload.length ≤ body.length := by
    obtain ⟨a, -, rfl⟩ := Option.map_eq_some_iff.mp h
    rw [hg a]
    exact Nat.zero_le _
  unfold parseBody at h
  split at h
  · cases h
    exact Nat.le_refl _
  split at h
  · cases h
    exact Nat.le_refl _
  split at h
  · exact hmap (fun _ => rfl) h
  split at h
  · exact hmap (fun _ => rfl) h
  split at h
  · exact hmap (fun _ => rfl) h
  split at h
  · exact hmap (fun _ => rfl) h
  · cases h
    exact Nat.zero_le _

theorem payload_consume (h : consumeLeadingH3Frame buf = some (f, rest)) :
    f.payload.length + rest.length < buf.length := by
  rw [consumeLeadingH3Frame_eq] at h
  obtain ⟨⟨type, buf₁⟩, htype, h⟩ := Option.bind_eq_some_iff.mp h
  obtain ⟨⟨length, buf₂⟩, hlength, h⟩ := Option.bind_eq_some_iff.mp h
  have hlt := progresses_consumeLeadingVarint htype
  have hlt' := progresses_consumeLeadingVarint hlength
  unfold takeBody takeExactly at h
  dsimp only at h hlt hlt'
  split at h
  next hle =>
    obtain ⟨_, hbody, heq⟩ := Option.map_eq_some_iff.mp h
    cases heq
    have hpayload := payload_parseBody hbody
    rw [length_take] at hpayload
    rw [length_drop]
    omega
  · cases h

namespace PendingRequest

def addFrame (pr : PendingRequest) (f : H3Frame) : PendingRequest :=
  { pr with req := pr.req.addFrame f, headersParsed := pr.headersParsed || f.opens }

/-- The loop goes on exactly behind a sound frame. -/
theorem onFrame_eq (pr : PendingRequest) (f : H3Frame)
    (hbody : pr.req.body.length + f.payload.length ≤ kMaxRequestBodyBytes) :
    f.sound = true ∧ pr.onFrame f = .ok (pr.addFrame f) ∨
      f.sound = false ∧ pr.addFrame f = pr ∧ ∃ stop, stop ≠ .dry ∧ pr.onFrame f = .error stop := by
  have hother (g : H3Frame) (hreq : pr.req.addFrame g = pr.req) (hopens : g.opens = false) :
      pr.addFrame g = pr := by
    rw [addFrame, hreq, hopens, Bool.or_false]
  cases f with
  | headers section_ =>
    by_cases hlarge : section_.length > kMaxFieldSectionBytes
    · have hnone : fieldsOf section_ = none := if_pos hlarge
      refine .inr ⟨?_, hother _ ?_ ?_, .excessive _, nofun, if_pos hlarge⟩
      · rw [H3Frame.sound, hnone]
        rfl
      · rw [Http3Request.addFrame, hnone]
      · rw [H3Frame.opens, hnone]
        rfl
    have hdecode : fieldsOf section_ = qpackDecode section_ := if_neg hlarge
    rw [onFrame, if_neg hlarge]
    cases hfields : qpackDecode section_ with
    | none =>
      rw [hfields] at hdecode
      refine .inr ⟨?_, hother _ ?_ ?_, .undecodable, nofun, rfl⟩
      · rw [H3Frame.sound, hdecode]
        rfl
      · rw [Http3Request.addFrame, hdecode]
      · rw [H3Frame.opens, hdecode]
        rfl
    | some fields =>
      rw [hfields] at hdecode
      refine .inl ⟨?_, ?_⟩
      · rw [H3Frame.sound, hdecode]
        rfl
      · rw [addFrame, Http3Request.addFrame, H3Frame.opens, hdecode]
        rw [Option.isSome_some, Bool.or_true]
  | data data =>
    refine .inl ⟨rfl, ?_⟩
    have hfits : ¬ data.length > kMaxRequestBodyBytes - pr.req.body.length := by
      have hlen : pr.req.body.length + data.length ≤ kMaxRequestBodyBytes := hbody
      omega
    have hopens : (H3Frame.data data).opens = false := rfl
    rw [onFrame, if_neg hfits, addFrame, hopens, Bool.or_false]
    rfl
  | settings | goAway | maxPushId | cancelPush | reserved =>
    exact .inl ⟨rfl, congrArg _ (hother _ rfl rfl).symm⟩

theorem length_body_addFrame (req : Http3Request) (f : H3Frame) :
    (req.addFrame f).body.length ≤ req.body.length + f.payload.length := by
  have hfields (fields : HeaderList) (req : Http3Request) :
      (req.addFields fields).body = req.body := by
    unfold Http3Request.addFields
    induction fields generalizing req with
    | nil => rfl
    | cons field fields ih =>
      rw [foldl_cons, ih]
      unfold Http3Request.addField
      repeat' split
      all_goals rfl
  cases f with
  | headers section_ =>
    rw [Http3Request.addFrame]
    cases fieldsOf section_ with
    | none => exact Nat.le_add_right _ _
    | some fields =>
      rw [hfields]
      exact Nat.le_add_right _ _
  | data data => exact Nat.le_of_eq length_append
  | settings | goAway | maxPushId | cancelPush | reserved => exact Nat.le_add_right _ _

/-- What the loop has done when it ends: the frames `fs` are taken out and into account, and where
it ends dry, no frame is left in front. -/
structure Drains (pr pr' : PendingRequest) (stop : Drained) (used : Bytes) (fs : List H3Frame) :
    Prop where
  buffer : pr.recvBuf = used ++ pr'.recvBuf
  comprises : Comprises used fs
  request : pr' = { fs.foldl addFrame pr with recvBuf := pr'.recvBuf }
  body : pr'.req.body.length + pr'.recvBuf.length ≤ pr.req.body.length + pr.recvBuf.length
  dry : stop = .dry → consumeLeadingH3Frame pr'.recvBuf = none
  sound : (∀ f ∈ fs, f.sound = true) → stop = .dry

/-- **Draining.** -/
theorem drains_drain (fuel : Nat) (pr : PendingRequest) (hfuel : pr.recvBuf.length ≤ fuel)
    (hbody : pr.req.body.length + pr.recvBuf.length ≤ kMaxRequestBodyBytes) :
    ∃ used fs, Drains pr (drain fuel pr).1 (drain fuel pr).2 used fs := by
  induction fuel generalizing pr with
  | zero =>
    have hnil : pr.recvBuf = [] := eq_nil_of_length_eq_zero (Nat.le_zero.mp hfuel)
    refine ⟨[], [], rfl, .nil, rfl, Nat.le_refl _, fun _ => ?_, fun _ => rfl⟩
    show consumeLeadingH3Frame pr.recvBuf = none
    rw [hnil]
    rfl
  | succ fuel ih =>
    unfold drain
    split
    next hnone => exact ⟨[], [], rfl, .nil, rfl, Nat.le_refl _, fun _ => hnone, fun _ => rfl⟩
    next f rest hsome =>
      have hlt := payload_consume hsome
      obtain ⟨used, hused, hmore⟩ := local_consumeLeadingH3Frame hsome
      have hone : Comprises used [f] :=
        ⟨fun more => Intake.items_of_some (I := frames) (hmore more),
          fun more => Intake.rest_of_some (I := frames) (hmore more)⟩
      obtain ⟨hsound, hok⟩ | ⟨hsound, hsame, stop, hstop, herror⟩ :=
        ({ pr with recvBuf := rest } : PendingRequest).onFrame_eq f (by dsimp only; omega)
      · rw [hok]
        have hgrow := length_body_addFrame pr.req f
        obtain ⟨used', fs, h⟩ := ih (addFrame { pr with recvBuf := rest } f)
          (by show rest.length ≤ fuel; omega)
          (by show (pr.req.addFrame f).body.length + rest.length ≤ _; omega)
        refine ⟨used ++ used', f :: fs, ?_, hone.append h.comprises, ?_, ?_, h.dry, fun hall =>
          h.sound fun g hg => hall g (mem_cons_of_mem _ hg)⟩
        · have hbuf := h.buffer
          change rest = _ at hbuf
          rw [hused, append_assoc, ← hbuf]
        · refine h.request.trans ?_
          have hfold (gs : List H3Frame) (p : PendingRequest) (b b' : Bytes) :
              ({ gs.foldl addFrame { p with recvBuf := b } with recvBuf := b' } : PendingRequest) =
                { gs.foldl addFrame p with recvBuf := b' } := by
            induction gs generalizing p with
            | nil => rfl
            | cons g gs ih => exact ih (p.addFrame g)
          exact hfold fs (pr.addFrame f) rest _
        · refine Nat.le_trans h.body ?_
          show (pr.req.addFrame f).body.length + rest.length ≤ _
          omega
      · rw [herror]
        refine ⟨used, [f], hused, hone, ?_, ?_, fun h => absurd h hstop, fun hall => ?_⟩
        · rw [foldl_cons]
          exact congrArg (fun p : PendingRequest => { p with recvBuf := rest }) hsame.symm
        · show pr.req.body.length + rest.length ≤ _
          omega
        · rw [hall f (mem_singleton_self f)] at hsound
          cases hsound

/-! ## Reading along -/

theorem foldl_addFrame (fs : List H3Frame) (pr : PendingRequest) :
    fs.foldl addFrame pr =
      { pr with
        req := fs.foldl Http3Request.addFrame pr.req
        headersParsed := pr.headersParsed || fs.any H3Frame.opens } := by
  induction fs generalizing pr with
  | nil => rw [any_nil, Bool.or_false]; rfl
  | cons f fs ih => rw [foldl_cons, ih, any_cons, ← Bool.or_assoc]; rfl

/-- The request is that of the frames in front of what is left of `content`. -/
structure Follows (content : Bytes) (pr : PendingRequest) : Prop where
  reads : ∃ used fs, content = used ++ pr.recvBuf ∧ Comprises used fs ∧
    pr.req = fs.foldl Http3Request.addFrame {} ∧ pr.headersParsed = fs.any H3Frame.opens
  body : pr.req.body.length + pr.recvBuf.length ≤ content.length

theorem follows_nil : Follows [] {} := ⟨⟨[], [], rfl, .nil, rfl, rfl⟩, Nat.le_refl _⟩

/-- Where no frame is left in front, it is the request of the whole content. -/
theorem Follows.request (h : Follows content pr)
    (hdry : consumeLeadingH3Frame pr.recvBuf = none) :
    pr.req = requestOf content ∧ (pr.headersParsed = true ↔ Opens content) := by
  obtain ⟨used, fs, rfl, hfs, hreq, hparsed⟩ := h.reads
  have hitems : frames.items (used ++ pr.recvBuf) = fs := by
    rw [hfs.items, Intake.items_of_none (I := frames) hdry, append_nil]
  rw [requestOf, Opens, hitems, hparsed, any_eq_true]
  exact ⟨hreq, Iff.rfl⟩

/-- What a read makes of a request that follows the content. -/
structure Fed (content : Bytes) (pr : PendingRequest) (fin : Bool) (pr' : PendingRequest)
    (stop : Drained) : Prop where
  follows : Follows content pr'
  finSeen : pr'.finSeen = (pr.finSeen || fin)
  dry : stop = .dry → consumeLeadingH3Frame pr'.recvBuf = none
  sound : (∀ f ∈ frames.items content, f.sound = true) → stop = .dry

theorem Follows.feed (h : Follows content pr)
    (hlimit : (content ++ chunk).length ≤ kMaxRequestStreamBytes)
    (hfeed : pr.feed chunk fin = (pr', stop)) : Fed (content ++ chunk) pr fin pr' stop := by
  obtain ⟨⟨used, fs, hcontent, hfs, hreq, hparsed⟩, hbody⟩ := h
  rw [length_append] at hlimit
  unfold PendingRequest.feed at hfeed
  rw [if_neg (by omega)] at hfeed
  have hlimits : kMaxRequestBodyBytes = kMaxRequestStreamBytes := rfl
  obtain ⟨used', fs', hdrain⟩ := drains_drain _
    { pr with recvBuf := pr.recvBuf ++ chunk, finSeen := pr.finSeen || fin } (Nat.le_refl _)
    (by dsimp only; rw [length_append]; omega)
  rw [hfeed] at hdrain
  obtain ⟨hbuffer, hfs', hrequest, hbody', hdry, hsound⟩ := hdrain
  dsimp only at hbuffer hrequest hbody' hdry hsound
  have hcontent' : content ++ chunk = used ++ used' ++ pr'.recvBuf := by
    rw [hcontent, append_assoc, hbuffer, append_assoc]
  rw [foldl_addFrame] at hrequest
  have hall := hfs.append hfs'
  refine ⟨⟨⟨used ++ used', fs ++ fs', hcontent', hall, ?_, ?_⟩, ?_⟩, ?_, hdry, fun hgood => ?_⟩
  · rw [hrequest, foldl_append, ← hreq]
  · rw [hrequest, any_append, ← hparsed]
  · rw [length_append] at hbody' ⊢
    omega
  · rw [hrequest]
  · refine hsound fun f hf => hgood f ?_
    rw [hcontent', hall.items]
    exact mem_append_left _ (mem_append_right _ hf)

theorem handled_of_ready {pr : PendingRequest} (h : pr.ready = true) : pr.handled = false := by
  simpa using (Bool.and_eq_true_iff.mp h).2

/-- Nothing but the call of the handler marks a request as handled. -/
theorem handled_feed (hfeed : feed pr chunk fin = (pr', stop)) : pr'.handled = pr.handled := by
  have honFrame {pr pr' : PendingRequest} {f : H3Frame} (h : pr.onFrame f = .ok pr') :
      pr'.handled = pr.handled := by
    cases f with
    | headers section_ =>
      rw [onFrame] at h
      split at h
      · cases h
      · split at h <;> cases h
        rfl
    | data data =>
      rw [onFrame] at h
      split at h <;> cases h
      rfl
    | settings | goAway | maxPushId | cancelPush | reserved =>
      cases h
      rfl
  have hdrain (fuel : Nat) (pr : PendingRequest) : (drain fuel pr).1.handled = pr.handled := by
    induction fuel generalizing pr with
    | zero => rfl
    | succ fuel ih =>
      unfold drain
      split
      · rfl
      split
      · rfl
      next hok => exact (ih _).trans (honFrame hok :)
  unfold feed at hfeed
  split at hfeed
  · cases hfeed
    rfl
  · have hkept := hdrain (pr.recvBuf ++ chunk).length
      { pr with recvBuf := pr.recvBuf ++ chunk, finSeen := pr.finSeen || fin }
    rwa [hfeed] at hkept

end PendingRequest

end Spaznet.Http3
