import AoeDriver.Model.Bio

/-!
# Issue, retransmission and completion

The functions of `aoecmd.c` and `aoedev.c` that move frames, bufs and requests, each as a function of the
device under `d->lock`.
-/

namespace AoeDriver

/-- `aoe_end_request` without the call of `__blk_run_queue`: one status for each bio of the chain. -/
def endRequest (d : Aoedev) (r : Nat) (fastfail : Bool) : Aoedev :=
  let rq := d.rqAt r
  { d with
    ip.rq := if d.ip.rq = some r then none else d.ip.rq
    rqs := d.rqs.filter (·.id ≠ r)
    hist.ended := d.hist.ended ++ [⟨rq, fastfail, rq.bios.map fun bio => !fastfail && !bio.error⟩] }

def failQueue : List Request → Aoedev → Aoedev
  | [], d => d
  | rq :: q, d => failQueue q (endRequest { d with queue := q, rqs := rq :: d.rqs } rq.id true)

/-- The loop that starts every waiting request and ends it with `fastfail`. -/
def fastFail (d : Aoedev) : Aoedev := failQueue d.queue d

/-- `blk_peek_request` and `blk_start_request` for the first request of the queue. -/
def startRq (d : Aoedev) (rq : Request) (q : List Request) : Aoedev :=
  { d with
    queue := q, rqs := { rq with special := rq.bios.length } :: d.rqs
    ip.rq := some rq.id, ip.nxbio := if rq.bios = [] then none else some 0 }

/-- `bufinit` for the bio at position `i` of request `r`, which becomes the buf in process. -/
def takeBio (d : Aoedev) (r i : Nat) : Aoedev :=
  let nxbio := if i + 1 < (d.rqAt r).bios.length then some (i + 1) else none
  { d with
    bufs := { id := d.bufIds, nframesout := 0, rq := r, bio := i, iter := (d.bioAt r i).iter } :: d.bufs
    bufIds := d.bufIds + 1
    ip := { buf := some d.bufIds, nxbio := nxbio, rq := if nxbio.isNone then none else some r }
    hist.taken := d.hist.taken ++ [(r, i)] }

/-- Allocation and set-up of a buf for the next bio of request `r`. -/
def nextbufAlloc (d : Aoedev) (r : Nat) : Aoedev × Option Nat :=
  let (ok, rest) := nextOutcome d.env.mempool
  let d := { d with env.mempool := rest }
  if ok then
    match d.ip.nxbio with
    | none => ({ d with hist.nullBio := true }, none)
    | some i => (takeBio d r i, some d.bufIds)
  else (d, none)

def nextbuf (d : Aoedev) : Aoedev × Option Nat :=
  if !d.blkq then (d, none)
  else
    match d.ip.buf with
    | some b => (d, some b)
    | none =>
      match d.ip.rq with
      | some r => nextbufAlloc d r
      | none =>
        match d.queue with
        | [] => (d, none)
        | rq :: q => nextbufAlloc (startRq d rq q) rq.id

/-- What `aoecmd_ata_rw` does with its buf. -/
def cutBuf (d : Aoedev) (b : Nat) : Aoedev :=
  let buf := d.bufAt b
  let rest := bioAdvanceIter (d.bioAt buf.rq buf.bio).vecs buf.iter (cutIter d.maxbcnt buf.iter).size
  { d.modBuf b fun x => { x with iter := rest, nframesout := x.nframesout + 1 } with
    ip.buf := if rest.size = 0 then none else d.ip.buf }

def Aoedev.noteCut (d : Aoedev) (f : Frame) (buf : Buf) : Aoedev :=
  { d with hist.cuts := d.hist.cuts ++ [⟨f.cmd, buf.rq, buf.bio, f.iter.sector, f.iter.size⟩] }

/-- What `aoecmd_ata_rw` does once it has a buf and a frame. -/
def ataRwSend (d : Aoedev) (b : Nat) (f : Frame) : Aoedev :=
  let buf := d.bufAt b
  let iter := cutIter d.maxbcnt buf.iter
  let data := if (d.rqAt buf.rq).write then some (bioForEachSegment (d.bioAt buf.rq buf.bio).vecs iter) else none
  let (d, f) := ataRwFrameinit (cutBuf d b) { f with buf := some b, iter := iter } data
  let (d, f) := sendClone ((d.noteCut f buf).noteSend f true) f
  fhash d f

/-- The Boolean is the source's return value. -/
def aoecmdAtaRw (d : Aoedev) : Aoedev × Bool :=
  match nextbuf d with
  | (d, none) => (d, false)
  | (d, some b) =>
    match newframe d with
    | (d, none) => (d, false)
    | (d, some f) => (ataRwSend d b f, true)

/-- The ATA header of an identify command. -/
def ataIdHdr : AtaHdr :=
  { aflags := 0, errfeat := 0, scnt := 1, cmdstat := ATA_CMD_ID_ATA
    lba0 := 0, lba1 := 0, lba2 := 0, lba3 := 0xa0, lba4 := 0, lba5 := 0 }

def ataIdInit (d : Aoedev) (f : Frame) : Aoedev × Frame :=
  let (d, f) := newCommand d f
  let (d, h) := aoehdrAtainit d f.t
  let d := d.modTgt f.t fun t => { t with nout := incUshort t.nout }
  let f := { f with tag := h.tag, waited := 0, waitedTotal := 0 }
  let d := d.noteXmit f
  let skb := { f.skb.getD default with hdr := h, ata := ataIdHdr, dev := (d.tgtAt f.t).nd, len := 36 }
  ({ d with rttavg := RTTAVG_INIT, rttdev := RTTDEV_INIT, rexmitArmed := true }, { f with skb := some skb })

/-- The Boolean tells whether a packet is returned. -/
def aoecmdAtaId (d : Aoedev) : Aoedev × Bool :=
  match newframe d with
  | (d, none) => (d, false)
  | (d, some f) =>
    let sent := (nextOutcome d.env.clone).1
    let (d, f) := ataIdInit d f
    let (d, f) := sendClone (d.noteSend f true) f
    (fhash d f, sent)

def ktcomplete (d : Aoedev) (f : Frame) (r : Option Rsp) : Aoedev :=
  let id := d.aoeminor % d.ncpus
  let id := if id ∈ d.kts then id else 0
  { d with iocq := d.iocq ++ [(id, { f with rSkb := r })] }

/-- The packet of `f` made ready for its next transmission under tag `n`. -/
def resendInit (d : Aoedev) (n : Nat) (f : Frame) : Aoedev × Frame :=
  let t := d.tgtAt f.t
  let d := d.noteNd t.nd
  let f := { f with nout := t.nout, tag := n }
  let d := d.noteXmit f
  let skb := f.skb.getD default
  let hdr := { skb.hdr with tag := n, dst := t.addr, src := (t.nd.getD default).devAddr }
  (d, { f with skb := some { skb with hdr := hdr, dev := t.nd } })

def resend (d : Aoedev) (f : Frame) : Aoedev :=
  let (d, n) := newtag d
  if (ifrotate (d.tgtAt f.t)).2 then
    let (d, f) := resendInit (d.modTgt f.t fun t => (ifrotate t).1) n f
    let (d, f) := sendClone (d.noteSend f false) f
    fhash d f
  else ktcomplete { d with hist.stranded := true } f none

/-- On success the frame that takes over the command and the old frame, which keeps the spare packet. -/
def reassignFrame (d : Aoedev) (f : Frame) : Aoedev × Option (Frame × Frame) :=
  match newframe d with
  | (d, none) => (d, none)
  | (d, some nf) =>
    if nf.t = f.t then (aoeFreetframe d nf, none)
    else
      (d, some
        ({ nf with
            skb := f.skb, buf := f.buf, iter := f.iter, waited := 0, waitedTotal := f.waitedTotal
            sent := f.sent, sentJiffs := f.sentJiffs, cmd := f.cmd, born := f.born },
          { f with skb := nf.skb }))

/-- The end of the loop body of `rexmit_deferred`. -/
def rexmitSend (d : Aoedev) (f : Frame) : Aoedev :=
  if (d.tgtAt f.t).maxout ≤ (d.tgtAt f.t).nout then { d with rexmitq := d.rexmitq ++ [f] }
  else
    let d := d.modTgt f.t fun t =>
      { t with nout := incUshort t.nout, noutProbes := if f.probe then incChar t.noutProbes else t.noutProbes }
    let since := tsinceHr d.clock f
    resend d { f with waited := addUlong f.waited since, waitedTotal := addUlong f.waitedTotal since }

def stopProbe (d : Aoedev) (f : Frame) : Aoedev := { aoeFreetframe d f with flags.kickme := true }

/-- A probe of target `t`, counted whether or not it could be sent. -/
def probeCounted (d : Aoedev) (t : Nat) : Aoedev :=
  (probe d t).modTgt t fun x => { x with noutProbes := incChar x.noutProbes }

/-- The loop body of `rexmit_deferred`; frames that stay deferred are appended to `rexmitq` again. -/
def rexmitOne (untainted : Nat) (d : Aoedev) (f : Frame) : Aoedev :=
  let t := d.tgtAt f.t
  if t.taint ≠ 0 then
    if !f.probe then
      match reassignFrame d f with
      | (d, none) => rexmitSend d f
      | (d, some (nf, f)) =>
        let d := if (d.tgtAt f.t).noutProbes = 0 ∧ 0 < untainted then probeCounted d f.t else d
        rexmitSend (aoeFreetframe d f) nf
    else if untainted < 1 then stopProbe d f
    else if tsinceHr d.clock f < t.taint * rto d then { d with rexmitq := d.rexmitq ++ [f] }
    else rexmitSend d f
  else if f.probe then stopProbe d f
  else rexmitSend d f

def rexmitLoop (untainted : Nat) : List Frame → Aoedev → Aoedev
  | [], d => d
  | f :: rest, d => rexmitLoop untainted rest (rexmitOne untainted d f)

def rexmitDeferred (d : Aoedev) : Aoedev :=
  rexmitLoop (countUntainted d) d.rexmitq { d with rexmitq := [] }

/-- How many more frames the windows of all targets admit. -/
def windowRoom (d : Aoedev) : Nat := (d.targets.map fun t => t.maxout - t.nout).sum

/-- `while (aoecmd_ata_rw(d))`, at most `fuel` times. -/
def ataRwLoop : Nat → Aoedev → Aoedev
  | 0, d => d
  | fuel + 1, d =>
    match aoecmdAtaRw d with
    | (d, true) => ataRwLoop fuel d
    | (d, false) => d

def aoecmdWork (d : Aoedev) : Aoedev :=
  let d := rexmitDeferred d
  ataRwLoop (windowRoom d + 1) d

/-- The request function of the queue. -/
def aoeblkRequest (d : Aoedev) : Aoedev := if d.flags.up then aoecmdWork d else fastFail d

/-- `aoe_end_request(d, rq, 0)`, which runs the queue. -/
def aoeEndRequest (d : Aoedev) (r : Nat) : Aoedev := aoeblkRequest (endRequest d r false)

/-- Sets `bi_error` of the bio of buf `b`. -/
def failBio (d : Aoedev) (b : Nat) : Aoedev :=
  let buf := d.bufAt b
  d.modRq buf.rq fun rq => { rq with bios := rq.bios.modify buf.bio fun bio => { bio with error := true } }

/-- The release of buf `b`, one bio of its request less. -/
def dropBuf (d : Aoedev) (b : Nat) : Aoedev :=
  let r := (d.bufAt b).rq
  let n := (d.rqAt r).special
  let d := { d with ip.buf := if d.ip.buf = some b then none else d.ip.buf
                    bufs := d.bufs.filter (·.id ≠ b) }
  (d.notePred .special n).modRq r fun rq => { rq with special := predUlong n }

def aoeEndBuf (d : Aoedev) (b : Nat) : Aoedev :=
  let r := (d.bufAt b).rq
  let n := (d.rqAt r).special
  if predUlong n = 0 then aoeEndRequest (dropBuf d b) r else dropBuf d b

/-- Nothing more is cut from buf `b`, and its bio has failed. -/
def spoilBuf (d : Aoedev) (b : Nat) : Aoedev := failBio (d.modBuf b fun x => { x with iter.size := 0 }) b

def aoeFailbuf (d : Aoedev) (b : Nat) : Aoedev :=
  let d := spoilBuf d b
  if (d.bufAt b).nframesout = 0 then aoeEndBuf d b else d

/-- `f->buf->nframesout--` -/
def decNframesout (d : Aoedev) (b : Nat) : Aoedev :=
  (d.notePred .nframesout (d.bufAt b).nframesout).modBuf b fun x => { x with nframesout := predUlong x.nframesout }

/-- `downdev_frame`, and the body of the loop of `aoe_flush_iocq_by_index`. -/
def downdevFrame (d : Aoedev) (f : Frame) : Aoedev :=
  let d := match f.buf with
    | some b => aoeFailbuf (decNframesout d b) b
    | none => d
  aoeFreetframe d f

def downdevFrames : List Frame → Aoedev → Aoedev
  | [], d => d
  | f :: rest, d => downdevFrames rest (downdevFrame d f)

def Aoedev.setNxbio (d : Aoedev) (nxbio : Option Nat) : Aoedev := { d with ip.nxbio := nxbio }

/-- The bio at position `i` of request `r` fails before it is taken. -/
def failNext (d : Aoedev) (r i : Nat) : Aoedev :=
  let n := (d.rqAt r).special
  let d' := (d.notePred .special n).modRq r fun rq =>
    { rq with special := predUlong n, bios := rq.bios.modify i fun bio => { bio with error := true } }
  d'.setNxbio (if i + 1 < (d.rqAt r).bios.length then some (i + 1) else none)

/-- `while ((bio = d->ip.nxbio))`, at most `fuel` times. -/
def failBios (r : Nat) : Nat → Aoedev → Aoedev
  | 0, d => d
  | fuel + 1, d =>
    match d.ip.nxbio with
    | none => d
    | some i => failBios r fuel (failNext d r i)

def aoeFailip (d : Aoedev) : Aoedev :=
  let d := match d.ip.buf with
    | some b => aoeFailbuf d b
    | none => d
  match d.ip.rq with
  | none => d
  | some r =>
    let d := failBios r (d.rqAt r).bios.length d
    if (d.rqAt r).special = 0 then aoeEndRequest d r else d

def aoecmdWreset (t : Aoetgt) : Aoetgt :=
  { t with maxout := 1, ssthresh := t.nframes / 2, nextCwnd := t.nframes }

/-- All frames in `factive`, bucket after bucket. -/
def Aoedev.activeFrames (d : Aoedev) : List Frame := (List.finRange NFACTIVE).flatMap d.factive

def aoedevDowndev (d : Aoedev) : Aoedev :=
  let d := { d with flags.up := false }
  let d := downdevFrames d.activeFrames { d with factive := fun _ => [] }
  let d := downdevFrames d.rexmitq { d with rexmitq := [] }
  let d := { d with targets := d.targets.map fun t => { aoecmdWreset t with nout := 0 } }
  let d := aoeFailip d
  let d := if d.blkq then fastFail d else d
  { d with gd := d.gd.map fun gd => { gd with capacity := 0 } }

def scorn (t : Aoetgt) : Aoetgt :=
  let n := t.taint
  let taint := t.taint + 1
  let taint := taint + taint * 2
  let taint := if n > taint then n else taint
  { t with taint := if taint > MAX_TAINT then MAX_TAINT else taint }

/-- One loss on the interface `f` was sent on, which may cost the target that interface. -/
def countLost (f : Frame) (t : Aoetgt) : Aoetgt :=
  match getif t (f.skb.getD default).dev with
  | none => t
  | some i =>
    let lost := (t.ifAt i).lost + 1
    let t := { t with ifs := t.ifs.modify i fun x => { x with lost := lost } }
    if lost > t.nframes <<< 1 ∧ (i ≠ 0 ∨ (t.ifAt 1).nd.isSome) then ejectif t i else t

/-- The slot that the loss of `f` costs the target, if any. -/
def ejectSlot (f : Frame) (t : Aoetgt) : Option Nat :=
  match getif t (f.skb.getD default).dev with
  | none => none
  | some i =>
    if !f.probe ∧ (t.ifAt i).lost + 1 > t.nframes <<< 1 ∧ (i ≠ 0 ∨ (t.ifAt 1).nd.isSome) then some i else none

/-- Logs the call of `ejectif` for the loss of `f`. -/
def Aoedev.noteEject (d : Aoedev) (f : Frame) : Aoedev :=
  match ejectSlot f (d.tgtAt f.t) with
  | none => d
  | some i => { d with hist.ejects := d.hist.ejects ++ [⟨f.t, (d.tgtAt f.t).bare, i, d.hist.sends.length⟩] }

/-- The target of a frame that has waited `n` seconds for its target. -/
def expireTgt (deadsecs utgts n : Nat) (f : Frame) (t : Aoetgt) : Aoetgt :=
  let t := if deadsecs ≠ 0 ∧ 0 < utgts ∧ (n > deadsecs / utgts ∨ n > HARD_SCORN_SECS) then scorn t else t
  let t := { t with lost := t.lost + 1 }
  let t := if t.maxout ≠ 1 then { t with ssthresh := t.maxout / 2, maxout := 1 } else t
  if f.probe then { t with noutProbes := decChar t.noutProbes } else countLost f t

/-- The treatment of one expired frame whose device stays up. -/
def expireFrame (utgts : Nat) (d : Aoedev) (f : Frame) : Aoedev :=
  let n := addUlong f.waited (tsinceHr d.clock f) / USEC_PER_SEC
  let d := d.noteEject f
  let d := d.modTgt f.t (expireTgt d.aoeDeadsecs utgts n f)
  let d := { d with rexmitq := d.rexmitq ++ [f] }
  (d.notePred .nout (d.tgtAt f.t).nout).modTgt f.t fun t => { t with nout := decUshort t.nout }

/-- `waited_total + since` exceeds `aoe_deadsecs`. -/
def waitedTooLong (d : Aoedev) (f : Frame) : Bool :=
  d.aoeDeadsecs ≠ 0 && addUlong f.waitedTotal (tsinceHr d.clock f) / USEC_PER_SEC > d.aoeDeadsecs && !f.probe

/-- The Boolean is true when a frame has waited too long; the frames left then hang on bucket 0. -/
def expireLoop (utgts : Nat) : List Frame → Aoedev → Aoedev × Bool
  | [], d => (d, false)
  | f :: rest, d =>
    if waitedTooLong d f then
      ({ d with factive := Function.update d.factive (bucket 0) (f :: rest ++ d.factive (bucket 0)) }, true)
    else expireLoop utgts rest (expireFrame utgts d f)

/-- Every bucket is scanned up to the first frame that is not expired. -/
def expired (d : Aoedev) (timeout : Int) (i : Fin NFACTIVE) : List Frame :=
  (d.factive i).takeWhile fun f => !(tsinceHr d.clock f < timeout)

def collectExpired (d : Aoedev) (timeout : Int) : Aoedev × List Frame :=
  ({ d with factive := fun i => (d.factive i).dropWhile fun f => !(tsinceHr d.clock f < timeout) },
    (List.finRange NFACTIVE).flatMap (expired d timeout))

/-- `rexmit_timer` up to the point where the device goes down or `rexmit_deferred` is called. -/
def timerExpire (d : Aoedev) : Aoedev × Bool :=
  let (d', flist) := collectExpired d (rto d)
  expireLoop d.targets.length flist d'

def timerKick (d : Aoedev) : Aoedev :=
  if d.flags.kickme && d.blkq then aoeblkRequest { d with flags.kickme := false } else d

def rexmitTimer (d : Aoedev) : Aoedev :=
  if d.flags.tkill then d
  else
    match timerExpire d with
    | (d, true) => timerKick (aoedevDowndev d)
    | (d, false) => timerKick (rexmitDeferred d)

/-- First frame of a list with the given tag, and the list without it. -/
def takeTag (tag : Nat) (l : List Frame) : Option (Frame × List Frame) :=
  (l.find? (·.tag = tag)).map fun f => (f, l.eraseP (·.tag = tag))

def getframe (d : Aoedev) (tag : Nat) : Option (Frame × Aoedev) :=
  (takeTag tag (d.factive (bucket tag))).map fun p =>
    (p.1, { d with factive := Function.update d.factive (bucket tag) p.2 })

def getframeDeferred (d : Aoedev) (tag : Nat) : Option (Frame × Aoedev) :=
  (takeTag tag d.rexmitq).map fun p => (p.1, { d with rexmitq := p.2 })

/-- The window part of `calc_rttavg`. -/
def growWindow (t : Aoetgt) : Aoetgt :=
  if t.nframes ≤ t.maxout then t
  else if t.maxout < t.ssthresh then { t with maxout := incUshort t.maxout }
  else if t.nout = t.maxout then
    let t' := { t with nextCwnd := decUshort t.nextCwnd }
    if t.nextCwnd = 0 then { t' with maxout := incUshort t.maxout, nextCwnd := incUshort t.maxout } else t'
  else t

def calcRttavg (d : Aoedev) (t : Option Nat) (rtt : Int) : Aoedev :=
  let n := rtt - (d.rttavg >>> RTTSCALE : Nat)
  let rttavg := ((d.rttavg + n) % 2^32).toNat
  let n := (n.natAbs : Int) - (d.rttdev >>> RTTDSCALE : Nat)
  let d := { d with rttavg := rttavg, rttdev := ((d.rttdev + n) % 2^32).toNat }
  match t with
  | none => d
  | some t => d.modTgt t growWindow

def gettgt (d : Aoedev) (addr : Mac) : Option Nat := d.targets.findIdx? (·.addr = addr)

/-- `aoecmd_ata_rsp` under the lock, before `aoecmd_work`: the frame the response belongs to. -/
def rspMatch (d : Aoedev) (r : Rsp) : Aoedev × Option Frame :=
  match getframe d r.tag with
  | some (f, d) =>
    let d := calcRttavg d (some f.t) (tsinceHr d.clock f)
    let d := d.notePred .nout (d.tgtAt f.t).nout
    (d.modTgt f.t fun t =>
      { t with nout := decUshort t.nout, noutProbes := if f.probe then decChar t.noutProbes else t.noutProbes },
      some f)
  | none =>
    match getframeDeferred d r.tag with
    | some (f, d) => (calcRttavg d none (tsinceHr d.clock f), some f)
    | none =>
      let d := calcRttavg d none (tsince d.clock r.tag)
      match gettgt d r.src with
      | none => (d, none)
      | some t => (d.modTgt t fun x => { x with lost := predUlong x.lost }, none)

/-- `ktiocomplete` up to its label `out`, without what it does under `d->lock`. -/
def ktioData (d : Aoedev) (f : Frame) : Aoedev × Option KtioMid :=
  let fail := match f.buf with
    | some b => failBio d b
    | none => d
  if f.probe then (d, none)
  else
    match f.rSkb with
    | none => (fail, none)
    | some r =>
      let ahout := (f.skb.getD default).ata
      let n := ahout.scnt.toNat <<< 9
      if r.cmdstat &&& 0xa9 ≠ 0 then (fail, none)
      else if ahout.cmdstat = ATA_CMD_PIO_READ ∨ ahout.cmdstat = ATA_CMD_PIO_READ_EXT then
        if r.payload.length < n then (fail, none)
        else if n > f.iter.size then (fail, none)
        else
          let buf := d.bufAt (f.buf.getD 0)
          ({ d with mem := d.mem ++ bvcpy r.payload (d.bioAt buf.rq buf.bio).vecs f.iter n },
            some (.lost r.dev))
      else if ahout.cmdstat = ATA_CMD_PIO_WRITE ∨ ahout.cmdstat = ATA_CMD_PIO_WRITE_EXT then
        (d, some (.lost r.dev))
      else if ahout.cmdstat = ATA_CMD_ID_ATA then
        if r.payload.length < 512 then (d, none)
        else
          -- `skb_linearize` may fail for want of memory
          let (ok, rest) := nextOutcome d.env.skb
          ({ d with env.skb := rest }, if ok then some (.ident r.payload) else none)
      else (d, none)

/-- The history of `ktioData`: what the response to a read or write frame was. -/
def noteProcessed (d : Aoedev) (f : Frame) : Aoedev :=
  match f.buf, f.rSkb with
  | some _, some r => { d with hist.processed := d.hist.processed ++ [⟨f.cmd, r.cmdstat, r.payload.length⟩] }
  | _, _ => d

/-- A completion redeems a tainted target a little and may probe it. -/
def redeem (d : Aoedev) (t : Nat) : Aoedev :=
  if 0 < (d.tgtAt t).taint then
    let d := d.modTgt t fun x => { x with taint := x.taint - 1 }
    if 0 < (d.tgtAt t).taint ∧ (d.tgtAt t).noutProbes = 0 ∧ 0 < countUntainted d then probeCounted d t else d
  else d

/-- The end of the last section of `ktiocomplete`. -/
def ktioFinish (d : Aoedev) (f : Frame) : Aoedev :=
  let d := aoeFreetframe d f
  match f.buf with
  | none => d
  | some b =>
    let d := decNframesout d b
    if (d.bufAt b).nframesout = 0 ∧ (d.bufAt b).iter.size = 0 then aoeEndBuf d b else d

end AoeDriver
