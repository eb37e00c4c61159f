import AoeDriver.Frames.Issue

/-!
# Traffic

A second account of a device, of what it sends rather than of where its frames are: the targets with their windows
and interfaces, the frames that may be sent again, and the log of packets. `Act` lists what the driver does to it.
An invariant of the traffic is kept by every run as soon as every act keeps it.
-/

namespace AoeDriver

open Tables

/-- `active` and `deferred` are the frames in `factive` and `rexmitq`; the targets come without their stock. -/
structure Traffic where
  targets : List Aoetgt
  active : Multiset Frame
  deferred : Multiset Frame
  maxbcnt : ℕ
  ncmds : ℕ
  sends : List Send
  ejects : List Eject
  holds : List (ℕ × NetDev)
  nullNd : Bool
  stranded : Bool

namespace Traffic

def tgt (l : Traffic) (i : ℕ) : Aoetgt := l.targets.getD i default

def mod (l : Traffic) (i : ℕ) (g : Aoetgt → Aoetgt) : Traffic := { l with targets := l.targets.modify i g }

def act (l : Traffic) (f : Frame) : Traffic := { l with active := f ::ₘ l.active }
def defer (l : Traffic) (f : Frame) : Traffic := { l with deferred := f ::ₘ l.deferred }

/-- The payload `aoecmd_ata_rw` and `probe` work with. -/
def payload (l : Traffic) : ℕ := if l.maxbcnt = 0 then DEFAULTBCNT else l.maxbcnt

/-- The packet of `f` is logged, and the interface of its target is looked at. -/
def post (l : Traffic) (f : Frame) (first cloned : Bool) : Traffic :=
  { l with
    sends := l.sends ++ [⟨f, l.tgt f.t, first, cloned⟩]
    nullNd := l.nullNd || (l.tgt f.t).nd.isNone }

end Traffic

/-- The device as its traffic shows it, with the frames some function has in hand. -/
def Aoedev.traffic (d : Aoedev) (h : Hands) : Traffic where
  targets := d.targets.map Aoetgt.bare
  active := contents d.factive + h.active
  deferred := d.rexmitq + h.deferred
  maxbcnt := d.maxbcnt
  ncmds := d.hist.ncmds
  sends := d.hist.sends
  ejects := d.hist.ejects
  holds := d.hist.holds
  nullNd := d.hist.nullNd
  stranded := d.hist.stranded

/-- The interface of every slot. -/
def Aoetgt.nds (t : Aoetgt) : List (Option NetDev) := t.ifs.map Aoeif.nd

/-- Two targets that differ in statistics at most. -/
structure Alike (t t' : Aoetgt) : Prop where
  addr : t'.addr = t.addr
  nframes : t'.nframes = t.nframes
  ifs : t'.ifs.map (fun x => (x.nd, x.bcnt)) = t.ifs.map fun x => (x.nd, x.bcnt)
  ifp : t'.ifp = t.ifp
  nout : t'.nout = t.nout
  maxout : t'.maxout = t.maxout
  ssthresh : t'.ssthresh = t.ssthresh
  nextCwnd : t'.nextCwnd = t.nextCwnd
  minbcnt : t'.minbcnt = t.minbcnt
  noutProbes : t'.noutProbes = t.noutProbes

/-- What the surroundings may be asked: the buffer counts advertised by new and by known targets, the payloads of
their interfaces, and when `aoecmd_cleanslate` is called. -/
structure Gate where
  add : ℕ → Prop
  advertise : ℕ → Prop
  setif : Multiset Frame → ℕ → Prop
  clean : Traffic → Prop

/-- One change of the window or the rotation of a target. -/
inductive Turning (G : Gate) : Aoetgt → Aoetgt → Prop where
  | rotate {t : Aoetgt} : Turning G t (ifrotate t).1
  | stats {t t' : Aoetgt} (h : Alike t t') : Turning G t t'
  | grow {t : Aoetgt} : Turning G t (growWindow t)
  | collapse {t : Aoetgt} : Turning G t { t with ssthresh := t.maxout / 2, maxout := 1 }
  | advertise {t : Aoetgt} {n : ℕ} (hn : G.advertise n) (hlt : n < 2^16) :
      Turning G t (if n < t.maxout then aoecmdWreset { t with nframes := n } else { t with nframes := n })

def Turnings (G : Gate) : Aoetgt → Aoetgt → Prop := Relation.ReflTransGen (Turning G)

/-- A target with one more packet outstanding, and its statistics. -/
def Aoetgt.issued (wpkts rpkts : Aoetgt → ℕ) (t : Aoetgt) : Aoetgt :=
  { t with nout := incUshort t.nout, wpkts := wpkts t, rpkts := rpkts t }

/-- One more probe. -/
def Aoetgt.probed (t : Aoetgt) : Aoetgt := { t with noutProbes := incChar t.noutProbes }

/-- A frame of the target leaves `factive`. -/
def Aoetgt.settled (f : Frame) (t : Aoetgt) : Aoetgt :=
  { t with nout := decUshort t.nout, noutProbes := if f.probe then decChar t.noutProbes else t.noutProbes }

/-- A frame of the target goes back to `factive`. -/
def Aoetgt.resumed (f : Frame) (t : Aoetgt) : Aoetgt :=
  { t with nout := incUshort t.nout, noutProbes := if f.probe then incChar t.noutProbes else t.noutProbes }

/-- What of a packet no retransmission changes. -/
def Skb.body (skb : Skb) : Skb := { skb with hdr := { skb.hdr with dst := 0, src := 0, tag := 0 }, dev := none }

/-- The command of a frame: its packet but for the addresses, and the range of the buf it stands for. -/
structure Command where
  body : Skb
  buf : Option ℕ
  iter : BvecIter

def Frame.command (f : Frame) : Command := ⟨(f.skb.getD default).body, f.buf, f.iter⟩

/-- The packet of `f` goes to target `t` over its current interface. -/
structure Addressed (t : Aoetgt) (f : Frame) : Prop where
  dst : (f.skb.getD default).hdr.dst = t.addr
  src : (f.skb.getD default).hdr.src = (t.nd.getD default).devAddr
  dev : (f.skb.getD default).dev = t.nd
  tag : (f.skb.getD default).hdr.tag = f.tag

/-- `f'` is `f` but for the time stamps of `skb_clone`. -/
def Restamped (f f' : Frame) : Prop := ∃ sent jiffs, f' = { f with sent := sent, sentJiffs := jiffs }

/-- `f'` is `f` made ready to be sent again. -/
structure Readied (f f' : Frame) : Prop where
  t : f'.t = f.t
  cmd : f'.cmd = f.cmd
  probe : f'.probe = f.probe
  command : f'.command = f.command

open Traffic in
/-- What one operation of the driver does to the traffic. -/
inductive Act (G : Gate) : Traffic → Traffic → Prop where
  | turn {l : Traffic} {i : ℕ} {g : Aoetgt → Aoetgt} (h : Turnings G (l.tgt i) (g (l.tgt i))) : Act G l (l.mod i g)
  | send {l : Traffic} {f f' : Frame} {cloned : Bool} {w r : Aoetgt → ℕ} (hw : (l.tgt f.t).nout < (l.tgt f.t).maxout)
      (hp : f.probe = false) (hcmd : f.cmd = l.ncmds) (hsize : f.iter.size ≤ l.payload)
      (ha : Addressed (ifrotate (l.tgt f.t)).1 f) (hs : Restamped f f') :
      Act G l ((({ l with ncmds := l.ncmds + 1 }.mod f.t fun t => (ifrotate t).1.issued w r).post f true cloned).act f')
  | probe {l : Traffic} {f f' : Frame} {cloned : Bool} {w r : Aoetgt → ℕ} (hlt : f.t < l.targets.length) (hn : (l.tgt f.t).noutProbes = 0)
      (hp : f.probe = true) (hcmd : f.cmd = l.ncmds) (hsize : f.iter.size ≤ l.payload)
      (ha : Addressed (ifrotate (l.tgt f.t)).1 f) (hs : Restamped f f') :
      Act G l (((({ l with ncmds := l.ncmds + 1 }.mod f.t fun t => (ifrotate t).1.issued w r).post f true cloned).mod f.t
        Aoetgt.probed).act f')
  | miss {l : Traffic} {i : ℕ} (hn : (l.tgt i).noutProbes = 0) : Act G l (l.mod i Aoetgt.probed)
  | eject {l : Traffic} {x : Eject} {f : Frame} (hx : x.slot < NAOEIFS)
      (hi : x.slot ≠ 0 ∨ ((l.tgt x.t).ifAt 1).nd.isSome) (hifp : x.tgt.ifp = (l.tgt x.t).ifp)
      (hnds : x.tgt.nds = (l.tgt x.t).nds) (hsent : x.sent = l.sends.length) (hf : f ∈ l.active)
      (hdev : ((l.tgt x.t).ifAt x.slot).nd = (f.skb.getD default).dev) :
      Act G l ({ l with ejects := l.ejects ++ [x] }.mod x.t fun t => ejectif t x.slot)
  | expire {l : Traffic} {f : Frame} : Act G (l.act f) ((l.mod f.t (Aoetgt.settled f)).defer f)
  | resend {l : Traffic} {f f' f'' : Frame} {cloned : Bool} (hw : (l.tgt f.t).nout < (l.tgt f.t).maxout)
      (hrot : (ifrotate (l.tgt f.t)).2 = true) (hr : Readied f f') (ha : Addressed (ifrotate (l.tgt f.t)).1 f')
      (hs : Restamped f' f'') :
      Act G (l.defer f) (((l.mod f.t fun t => (ifrotate t).1.resumed f).post f' false cloned).act f'')
  | strand {l : Traffic} {f : Frame} (hrot : (ifrotate (l.tgt f.t)).2 = false)
      (hw : (l.tgt f.t).nout < (l.tgt f.t).maxout) :
      Act G (l.defer f) { l.mod f.t (Aoetgt.resumed f) with stranded := true }
  | takeOver {l : Traffic} {f f' : Frame} (hp : f.probe = false) (hp' : f'.probe = false) (hcmd : f'.cmd = f.cmd)
      (hc : f'.command = f.command) : Act G (l.defer f) (l.defer f')
  | leave {l : Traffic} {f : Frame} : Act G (l.defer f) l
  | answer {l : Traffic} {f : Frame} : Act G (l.act f) (l.mod f.t (Aoetgt.settled f))
  | add {l : Traffic} {t : Aoetgt} {addr : Mac} {n : ℕ} {nd : NetDev} {bcnt : ℕ} (hn : G.add n) (hlt : n < 2^16)
      (hb : G.setif (l.active + l.deferred) bcnt) (hp : Payload bcnt) (ht : setifbcntTgt (newTarget addr n) nd bcnt = some t) :
      Act G l { l with
        targets := l.targets ++ [t], maxbcnt := setdbcntLoop 0 (l.targets ++ [t])
        holds := l.holds ++ [(l.targets.length, nd)] }
  | setif {l : Traffic} {i : ℕ} {t : Aoetgt} {nd : NetDev} {bcnt : ℕ} (hi : i < l.targets.length)
      (hb : G.setif (l.active + l.deferred) bcnt) (hp : Payload bcnt) (ht : setifbcntTgt (l.tgt i) nd bcnt = some t) :
      Act G l { l.mod i fun _ => t with
        maxbcnt := setdbcntLoop 0 (l.targets.modify i fun _ => t)
        holds := l.holds ++
          (setifbcntLoop bcnt NAOEIFS 0 (l.tgt i).ifs (some nd) bcnt).2.1.toList.map fun nd => (i, nd) }
  | clean {l : Traffic} (hc : G.clean l) : Act G l { l with maxbcnt := 0, targets := l.targets.map aoecmdWreset }
  | down {l : Traffic} :
      Act G l { l with
        active := 0, deferred := 0, targets := l.targets.map fun t => { aoecmdWreset t with nout := 0 } }

/-- Any number of acts. -/
def Acts (G : Gate) : Traffic → Traffic → Prop := Relation.ReflTransGen (Act G)

section Changes

variable (d : Aoedev) (h : Hands) (f : Frame)

theorem traffic_hands_act : d.traffic (h.act f) = (d.traffic h).act f := by
  simp [Aoedev.traffic, Hands.act, Traffic.act]

theorem traffic_hands_defer : d.traffic (h.defer f) = (d.traffic h).defer f := by
  simp [Aoedev.traffic, Hands.defer, Traffic.defer]

theorem traffic_hands_hold : d.traffic (h.hold f) = d.traffic h := rfl

theorem tgt_traffic (i : ℕ) : (d.traffic h).tgt i = (d.tgtAt i).bare := by
  simp only [Traffic.tgt, Aoedev.traffic, Aoedev.tgtAt, List.getD_eq_getElem?_getD, List.getElem?_map]
  cases d.targets[i]? with
  | none => rfl
  | some t => rfl

theorem traffic_modTgt (i : ℕ) (g k : Aoetgt → Aoetgt) (hg : ∀ t, (g t).bare = k t.bare) :
    (d.modTgt i g).traffic h = (d.traffic h).mod i k := by
  simp only [Aoedev.traffic, Aoedev.modTgt, Traffic.mod]
  rw [map_modify _ _ _ k _ hg]

theorem traffic_modTgt_at (i : ℕ) (g k : Aoetgt → Aoetgt) (hg : (g (d.tgtAt i)).bare = k (d.tgtAt i).bare) :
    (d.modTgt i g).traffic h = (d.traffic h).mod i k := by
  simp only [Aoedev.traffic, Aoedev.modTgt, Traffic.mod]
  rw [map_modify_at _ _ _ k _ hg]

theorem traffic_fhash : (fhash d f).traffic h = (d.traffic h).act f := by
  simp only [Aoedev.traffic, fhash, Traffic.act]
  rw [contents_push, Multiset.cons_add]

theorem traffic_stock {d d' : Aoedev} (hs : StockOnly d d') : d'.traffic h = d.traffic h := by
  obtain ⟨p, q, n, i, o, c, k, ts, rfl, ht⟩ := hs
  simp only [Aoedev.traffic]
  rw [ht]

theorem traffic_sendClone : (sendClone d f).1.traffic h = d.traffic h := by
  simp only [sendClone]
  split
  · rfl
  · rfl

theorem sendClone_restamped : Restamped f (sendClone d f).2 := by
  simp only [sendClone]
  split
  · exact ⟨_, _, rfl⟩
  · exact ⟨f.sent, f.sentJiffs, rfl⟩

theorem Restamped.of_eq {f f' : Frame} (h : Restamped f f') : f'.t = f.t ∧ f'.cmd = f.cmd ∧ f'.probe = f.probe ∧
    f'.iter = f.iter ∧ f'.command = f.command := by
  obtain ⟨s, j, rfl⟩ := h
  exact ⟨rfl, rfl, rfl, rfl, rfl⟩

theorem bare_ifrotate (t : Aoetgt) : (ifrotate t).1.bare = (ifrotate t.bare).1 ∧ (ifrotate t).2 = (ifrotate t.bare).2 := by
  have hif (i : ℕ) : t.bare.ifAt i = t.ifAt i := rfl
  have hifp : t.bare.ifp = t.ifp := rfl
  unfold ifrotate
  simp only [hif, hifp]
  generalize (if NAOEIFS ≤ t.ifp + 1 || (t.ifAt (t.ifp + 1)).nd.isNone then 0 else t.ifp + 1) = i
  split
  · exact ⟨rfl, rfl⟩
  · exact ⟨rfl, rfl⟩

end Changes

end AoeDriver
