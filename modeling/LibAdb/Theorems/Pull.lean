import LibAdb.Machine.Decoder
import LibAdb.Machine.FileSync

namespace FileSync

-- What a pull has made of the local file, the data that has arrived since it was created, and
-- whether the last frame that was read is the end of it.
structure Pulled where
  file : Option Bytes := none
  data : Bytes := []
  done : Bool := false

def Pulled.after (lpath : Bytes) (p : Pulled) : Event → Pulled
  | .creat path true => if path = lpath then { file := some [] } else p
  | .store bytes true => { p with file := p.file.map (· ++ bytes) }
  | .unlink path => if path = lpath then { p with file := none } else p
  | .recv .payload wanted bytes =>
    if bytes.length = wanted then { p with data := p.data ++ bytes } else p
  | .recv (.frame _) _ msg => { p with done := messageId msg = Id.done }
  | _ => p

def pulled (lpath : Bytes) (log : List Event) : Pulled :=
  log.foldl (Pulled.after lpath) {}

theorem pulled_note (lpath : Bytes) (w : World) (e : Event) :
    pulled lpath (w.note e).log = (pulled lpath w.log).after lpath e := by
  simp [pulled, World.note]

-- The file is what has arrived, or there is none.
def Pulls (lpath : Bytes) (ok : Bool) (w : World) : Prop :=
  if ok then ∃ data, pulled lpath w.log = ⟨some data, data, true⟩
  else (pulled lpath w.log).file = none

section Pulling

open Prog

variable {P : World → Prop} {lpath : Bytes} {w : World}

abbrev Gives (P : World → Prop) (x : SyncM α) (Q : α → World → Prop) : Prop :=
  Triple (fun _ _ => True) P x Q

theorem gives_note {Q : Unit → World → Prop} (h : ∀ w, P w → Q () (w.note event)) :
    Gives P (note event) Q :=
  triple_note h

theorem gives_ask {answer : Env → List Event → ρ} {Q : ρ → World → Prop}
    (h : ∀ w a, P w → Q a (w.note (event a))) : Gives P (ask answer event) Q :=
  triple_ask fun w hp => h w _ hp

def Has (lpath file data : Bytes) (done : Bool) (w : World) : Prop :=
  pulled lpath w.log = ⟨some file, data, done⟩

def Gone (lpath : Bytes) (w : World) : Prop :=
  (pulled lpath w.log).file = none

theorem has_note (h : (pulled lpath w.log).after lpath e = ⟨some file, data, done⟩) :
    Has lpath file data done (w.note e) :=
  (pulled_note ..).trans h

theorem gone_note (h : ((pulled lpath w.log).after lpath e).file = none) :
    Gone lpath (w.note e) :=
  (congrArg Pulled.file (pulled_note ..)).trans h

theorem gives_frame : Gives (Has lpath file data done) (readFdExactly (.frame b) 8) fun
    | none => fun _ => True
    | some msg => Has lpath file data (messageId msg = Id.done) := by
  refine triple_readFdExactly (fun w msg hw _ _ => ?_) fun _ _ _ _ _ => trivial
  have hw : pulled lpath (w.consume 8).log = ⟨some file, data, done⟩ := hw
  exact has_note (by rw [hw]; rfl)

theorem gives_payload : Gives (Has lpath file data done) (readFdExactly .payload n) fun
    | none => fun _ => True
    | some block => Has lpath file (data ++ block) done := by
  refine triple_readFdExactly (fun w block hw hl _ => ?_) fun _ _ _ _ _ => trivial
  have hw : pulled lpath (w.consume n).log = ⟨some file, data, done⟩ := hw
  exact has_note (by rw [hw, Pulled.after, if_pos hl])

theorem gives_store : Gives (Has lpath file data done) (store bytes) fun
    | false => fun _ => True
    | true => Has lpath (file ++ bytes) data done := by
  refine gives_ask fun w a hw => ?_
  cases a
  case false => exact trivial
  case true => exact has_note (by rw [hw]; rfl)

theorem gives_unlink {x : SyncM α} {Q : α → World → Prop} (hx : Gives (Gone lpath) x Q) :
    Gives P (do unlink lpath; x) Q := by
  refine (gives_note fun w _ => ?_).bind fun _ => hx
  exact gone_note (by simp [Pulled.after])

theorem gives_drop {a : α} {Q : α → World → Prop} (h : ∀ w, Gone lpath w → Q a w) :
    Gives P (do unlink lpath; return a) Q :=
  gives_unlink (.pure h)

theorem gives_abort : Gives (Has lpath file data done) syncShouldAbort fun _ =>
    Has lpath file data done := by
  refine .bind (R := fun _ => Has lpath file data done) (.act (f := fun w => (w, w)) fun _ hp => hp)
    fun _ => gives_ask fun w a hw => has_note hw

theorem gives_report : Gives (Gone lpath) (reportCopyFailure msg) fun _ => Gone lpath := by
  have read : Gives (Gone lpath) (readFdExactly .reason (field msg 4).toNat) fun _ => Gone lpath :=
    triple_readFdExactly (fun _ _ hp _ _ => gone_note hp)
      fun _ _ hp _ _ => gone_note hp
  exact read.bind fun _ => .pure fun _ h => h

-- The turn of both receive loops: everything but a `DONE` and a whole block removes the file.
theorem gives_turn {finish : SyncM (Turn β Bool)} {next : Bytes → SyncM (Turn β Bool)}
    {Q : Turn β Bool → World → Prop} (gone : ∀ w, Gone lpath w → Q (.done false) w)
    (last : Gives (Has lpath file file true) finish Q)
    (block : ∀ bytes, Gives (Has lpath file (file ++ bytes) false) (next bytes) Q) :
    Gives (Has lpath file file false) (do
      if ← syncShouldAbort then
        unlink lpath
        return .done false
      else
        match ← readFdExactly (.frame b) 8 with
        | none =>
          unlink lpath
          return .done false
        | some msg =>
          if messageId msg = Id.done then finish
          else if messageId msg ≠ Id.data then
            unlink lpath
            reportCopyFailure msg
            return .done false
          else if (field msg 4).toNat > syncDataMax then
            unlink lpath
            return .done false
          else
            match ← readFdExactly .payload (field msg 4).toNat with
            | none =>
              unlink lpath
              return .done false
            | some bytes => next bytes) Q := by
  refine gives_abort.bind fun asked => ?_
  split
  case isTrue => exact gives_drop gone
  case isFalse =>
    refine gives_frame.bind fun msg => ?_
    cases msg
    case none => exact gives_drop gone
    case some msg =>
      dsimp only
      split
      case isTrue hd =>
        rw [decide_eq_true hd]
        exact last
      case isFalse hd =>
        rw [decide_eq_false hd]
        split
        case isTrue => exact gives_unlink (gives_report.bind fun _ => .pure gone)
        case isFalse =>
          split
          case isTrue => exact gives_drop gone
          case isFalse =>
            refine gives_payload.bind fun bytes => ?_
            cases bytes
            case none => exact gives_drop gone
            case some bytes => exact block bytes

theorem gives_recvBlocksV1 :
    Gives (Has lpath [] [] false) (recvBlocksV1 lpath) (Pulls lpath) := by
  refine (Triple.loop (fun _ w => ∃ data, Has lpath data data false w) (fun _ => ?_)
    (fun _ _ _ => trivial) ()).conseq (fun w hw => ⟨[], hw⟩) fun _ _ h => h
  refine .exists_ fun data => gives_turn (fun _ h => h) (.pure fun w hw => ⟨data, hw⟩) fun bytes => ?_
  refine gives_store.bind fun ok => ?_
  cases ok
  case false => exact gives_drop fun _ h => h
  case true => exact .pure fun w hw => ⟨_, hw⟩

-- The data that has arrived is in the file or still in the decoder.
structure Holds (lpath : Bytes) (d : Decoder codecs) (w : World) : Prop where
  null : d.decompressor = .null
  data : ∃ file, Has lpath file (file ++ d.input.blocks.flatten) d.finished w

structure Passes (d : Decoder codecs) (result : DecodeResult) (output : Bytes)
    (d' : Decoder codecs) : Prop where
  null   : d'.decompressor = .null
  ended  : d'.finished = d.finished
  input  : d.input.blocks.flatten = output ++ d'.input.blocks.flatten
  result : result ≠ .error ∧ (result ≠ .moreOutput → d'.input.blocks.flatten = [] ∧
    d.finished = decide (result = .done))

theorem Decoder.decode_passes {d d' : Decoder codecs} (hn : d.decompressor = .null)
    (h : d.decode = some (result, output, d')) : Passes d result output d' := by
  simp only [decode, hn, decodeNull, Option.bind_eq_bind, Option.bind_eq_some_iff, Option.pure_def,
    Option.some.injEq, Prod.mk.injEq] at h
  obtain ⟨input, hi, rfl, rfl, rfl⟩ := h
  have rest := (IOVector.dropFront_eq_some hi).right
  refine ⟨rfl, rfl, ?_, ?_⟩
  · rw [rest, List.take_append_drop]
  · by_cases he : input.isEmpty
    case pos =>
      have empty : input.blocks.flatten = [] := List.length_eq_zero_iff.mp (of_decide_eq_true he)
      cases hf : d.finished <;> simp [he, empty]
    case neg => simp [he]

theorem gives_decodeFrames (d : Decoder codecs) :
    Gives (Holds lpath d) (decodeFrames lpath d) fun
      | .again d => fun w => Holds lpath d w ∧ d.input.blocks.flatten = [] ∧ d.finished = false
      | .done ok => Pulls lpath ok := by
  have blocks : Gives (Holds lpath d) (decodeBlocks lpath d) fun
      | .ok d => fun w => Holds lpath d w ∧ d.input.blocks.flatten = [] ∧ d.finished = false
      | .error ok => Pulls lpath ok := by
    refine .loop (Holds lpath) (fun d => .given (fun w hw => hw.null) fun null => ?_)
      (fun _ _ _ => trivial) d
    cases hd : d.decode
    case none => exact .halt fun _ _ => trivial
    case some r =>
      obtain ⟨result, output, d'⟩ := r
      have passes := Decoder.decode_passes null hd
      refine .conseq (P := fun w => ∃ file, Has lpath file (file ++ d.input.blocks.flatten)
        d.finished w) (.exists_ fun file => ?_) (fun w hw => hw.data) fun _ _ h => h
      refine .bind (R := fun _ => Has lpath file (file ++ d.input.blocks.flatten) d.finished)
        (gives_note fun w hw => has_note hw) fun _ => ?_
      rw [if_neg passes.result.1]
      have stored : Gives (Has lpath file (file ++ d.input.blocks.flatten) d.finished)
          (if output = [] then pure true else store output) fun
            | false => fun _ => True
            | true => Has lpath (file ++ output) (file ++ d.input.blocks.flatten) d.finished := by
        split
        case isTrue he =>
          rw [he, List.append_nil]
          exact .pure fun _ h => h
        case isFalse => exact gives_store
      refine stored.bind fun ok => ?_
      cases ok
      case false => exact gives_drop fun _ h => h
      case true =>
        have holds (w) (hw : Has lpath (file ++ output) (file ++ d.input.blocks.flatten)
            d.finished w) : Holds lpath d' w := by
          refine ⟨passes.null, file ++ output, ?_⟩
          rwa [List.append_assoc, ← passes.input, passes.ended]
        cases result
        case error => exact absurd rfl passes.result.1
        case done =>
          refine .pure fun w hw => ⟨file ++ output, ?_⟩
          obtain ⟨empty, ended⟩ := passes.result.2 nofun
          rw [passes.input, empty, List.append_nil, ended] at hw
          exact hw
        case needInput =>
          obtain ⟨empty, ended⟩ := passes.result.2 nofun
          exact .pure fun w hw => ⟨holds w hw, empty, passes.ended.trans ended⟩
        case moreOutput => exact .pure holds
  refine blocks.bind fun r => ?_
  cases r
  case ok => exact .pure fun _ h => h
  case error => exact .pure fun _ h => h

theorem gives_recvBlocksV2 (d : Decoder codecs) (hn : d.decompressor = .null)
    (hi : d.input.blocks.flatten = []) (hf : d.finished = false) :
    Gives (Has lpath [] [] false) (recvBlocksV2 lpath d) (Pulls lpath) := by
  refine (Triple.loop (fun d w => Holds lpath d w ∧ d.input.blocks.flatten = [] ∧
    d.finished = false) (fun d => ?_) (fun _ _ _ => trivial) d).conseq
    (fun w hw => ⟨⟨hn, [], by rwa [hi, hf]⟩, hi, hf⟩) fun _ _ h => h
  refine .given (fun w hw => hw.1.null) fun null => .given (fun w hw => hw.2) fun ⟨hi, hf⟩ => ?_
  refine Triple.conseq (P := fun w => ∃ file, Has lpath file file false w) (.exists_ fun file =>
    gives_turn (fun _ h => h) ?_ fun bytes => ?_) (fun w hw => ?_) fun _ _ h => h
  case refine_1 =>
    rw [Decoder.finish, hf]
    refine (gives_decodeFrames _).conseq (fun w hw => ⟨null, file, ?_⟩)
      fun t _ h => by cases t <;> exact h
    rwa [hi, List.append_nil]
  case refine_2 =>
    refine (gives_decodeFrames _).conseq (fun w hw => ⟨null, file, ?_⟩)
      fun t _ h => by cases t <;> exact h
    rwa [Decoder.append, IOVector.flatten_append, hi, hf]
  case refine_3 =>
    obtain ⟨file, hw⟩ := hw.1.data
    rw [hi, hf, List.append_nil] at hw
    exact ⟨file, hw⟩

theorem gives_creat {x : SyncM Bool} (hx : Gives (Has lpath [] [] false) x (Pulls lpath)) :
    Gives P (do unlink lpath; if ← creat lpath then x else return false) (Pulls lpath) := by
  refine gives_unlink (.bind (R := fun ok => if ok then Has lpath [] [] false else Gone lpath)
    (gives_ask fun w ok hw => ?_) fun ok => ?_) <;> cases ok
  · exact gone_note hw
  · exact has_note (by simp [Pulled.after])
  · exact .pure fun _ h => h
  · exact hx

theorem gives_write : Gives (fun w => w.log = []) (writeFdExactly packet) fun ok w =>
    ok = false → Gone lpath w := by
  refine triple_writeFdExactly (fun _ _ _ _ => nofun) fun w hw _ _ => gone_note ?_
  have hw : (w.written packet).log = [] := hw
  rw [hw]
  rfl

theorem recv_pulls (codecs : Codecs) (sc : SyncConnection) (rpath lpath : Bytes) (w : World)
    (hw : w.log = []) (hc : sc.resolveCompressionType compression = .none) (n : Nat) :
    Meets (fun _ _ => True) (Pulls lpath) (syncRecvV1 rpath lpath n w) ∧
      Meets (fun _ _ => True) (Pulls lpath) (syncRecvV2 codecs sc rpath lpath compression n w) := by
  have failed {x : SyncM Bool} (h : Gives (fun _ => True) x (Pulls lpath)) (ok : Bool) :
      Gives (fun w => ok = false → Gone lpath w) (if !ok then return false else x) (Pulls lpath) := by
    cases ok
    case false => exact .pure fun w hw => hw rfl
    case true => exact h.conseq (fun _ _ => trivial) fun _ _ h => h
  have long : Gives (fun w => w.log = []) (do setErrno enametoolong; return false) fun ok w =>
      ok = false → Gone lpath w :=
    .bind (R := fun _ w => w.log = [])
      (.act (f := fun w : World => ((), { w with errno := enametoolong })) fun _ h => h)
      fun _ => .pure fun w hw _ => by rw [Gone, hw]; rfl
  have request : Gives (fun w => w.log = []) (sendRequest Id.recvV1 rpath) fun ok w =>
      ok = false → Gone lpath w := by
    unfold sendRequest
    split
    case isTrue => exact long
    case isFalse => exact gives_write
  have recv2 : Gives (fun w => w.log = []) (sendRecv2 rpath .none) fun ok w =>
      ok = false → Gone lpath w := by
    unfold sendRecv2
    split
    case isTrue => exact long
    case isFalse => exact gives_write
  constructor
  · exact request.bind (failed (gives_creat gives_recvBlocksV1)) n w hw
  · unfold syncRecvV2
    rw [hc]
    exact recv2.bind (failed (gives_creat (gives_recvBlocksV2 _ rfl rfl rfl))) n w hw

def byteFrames : Codec FrameResult where
  State := Unit
  start := ()
  step _ input _ := (input.length, input, if input = [] then .hint else .zero, ())

def byteCodecs : Codecs where
  brotli := ⟨Unit, (), fun _ input _ => (input.length, input, .needsMoreInput, ())⟩
  lz4    := byteFrames
  zstd   := byteFrames

def oneByte : World :=
  replies (Id.data ++ [1, 0, 0, 0] ++ [7] ++ Id.done ++ [0, 0, 0, 0])

theorem recv_pulls_oneByte :
    (syncRecvV1 [] [] 2 oneByte).1 = .ret true ∧
    (syncRecvV2 byteCodecs (.make []) [] [] .none 2 oneByte).1 = .ret true ∧
      Meets (fun _ _ => True) (Pulls []) (syncRecvV1 [] [] 2 oneByte) ∧
      Meets (fun _ _ => True) (Pulls [])
        (syncRecvV2 byteCodecs (.make []) [] [] .none 2 oneByte) :=
  ⟨by decide +kernel, by decide +kernel, recv_pulls byteCodecs (.make []) [] [] oneByte rfl rfl 2⟩

end Pulling

end FileSync
