import IpncRdk.Lib.Run
import Mathlib.Data.List.Basic

/-!
# `lcd.c`: what the LCD driver requests and releases

A device is bound by a probe that succeeds, and unbound by a remove. A probe requests two GPIOs
(`lcd_dt_parse`), and then DMA memory, a framebuffer and a thread (`tft_lcd_fb_register`).

* `Driver` — what the driver holds;
* `Outcomes` — which kernel calls of a probe succeed;
* `Balanced` — an unbound device holds nothing, and nothing was freed that was not held;
* `balanced_iff` — exactly the runs that are balanced.

What the driver writes to the device and to the framebuffer's fields is left out; the memory of
`devm_kzalloc` goes with the device.
-/

namespace IpncRdk.SpiLcd

open Lib

/-- What the driver holds of the kernel, and whether it ever freed a GPIO that it did not hold. -/
structure Driver where
  gpios : List ℕ
  dmaBuffers : ℕ
  framebuffers : ℕ
  threads : ℕ
  wrongFree : Bool
  deriving DecidableEq, Repr

/-- Which of the kernel calls of a probe succeed, where they are made. -/
structure Outcomes where
  requestReset : Bool
  directionReset : Bool
  requestRs : Bool
  directionRs : Bool
  dmaAlloc : Bool
  framebufferAlloc : Bool
  deriving DecidableEq, Repr

/-- The GPIO numbers of a device, from its device tree node. -/
structure Device where
  resetGpio : ℕ
  rsGpio : ℕ
  deriving DecidableEq, Repr

/-! ## The kernel calls -/

/-- `gpio_request`: the kernel refuses a GPIO that is requested already, and may refuse others. -/
def gpioRequest (d : Driver) (gpio : ℕ) (ok : Bool) : Bool × Driver :=
  if ok ∧ gpio ∉ d.gpios then (true, { d with gpios := gpio :: d.gpios }) else (false, d)

/-- `gpio_free` -/
def gpioFree (d : Driver) (gpio : ℕ) : Driver :=
  if gpio ∈ d.gpios then { d with gpios := d.gpios.erase gpio } else { d with wrongFree := true }

/-! ## The functions of the driver -/

/-- `lcd_dt_parse`: whether it succeeds, and the driver afterwards. -/
def lcdDtParse (d : Driver) (dev : Device) (o : Outcomes) : Bool × Driver :=
  let err0 (d : Driver) : Bool × Driver := (false, gpioFree d dev.rsGpio)
  let err1 (d : Driver) : Bool × Driver := err0 (gpioFree d dev.resetGpio)
  match gpioRequest d dev.resetGpio o.requestReset with
  | (false, d) => err0 d
  | (true, d) =>
    if o.directionReset = false then err0 d
    else
      match gpioRequest d dev.rsGpio o.requestRs with
      | (false, d) => err0 d
      | (true, d) => if o.directionRs = false then err1 d else (true, d)

/-- `tft_lcd_fb_register`. The results of `register_framebuffer` and `kthread_run` are not looked
at. -/
def tftLcdFbRegister (d : Driver) (o : Outcomes) : Bool × Driver :=
  if o.dmaAlloc = false then (false, d)
  else
    let d := { d with dmaBuffers := d.dmaBuffers + 1 }
    if o.framebufferAlloc = false then (false, { d with dmaBuffers := d.dmaBuffers - 1 })
    else (true, { d with framebuffers := d.framebuffers + 1, threads := d.threads + 1 })

/-- `tft_lcd_probe`. Behind its label `err0` only the memory of `devm_kzalloc` is freed. -/
def tftLcdProbe (d : Driver) (dev : Device) (o : Outcomes) : Bool × Driver :=
  match lcdDtParse d dev o with
  | (false, d) => (false, d)
  | (true, d) =>
    match tftLcdFbRegister d o with
    | (false, d) => (false, d)
    | (true, d) => (true, d)

/-- `tft_lcd_remove` -/
def tftLcdRemove (d : Driver) (dev : Device) : Driver :=
  gpioFree (gpioFree d dev.rsGpio) dev.resetGpio

/-! ## A device that is bound and unbound -/

structure State where
  driver : Driver
  bound : Bool
  deriving DecidableEq, Repr

/-- Before the first probe. -/
def start : State := ⟨⟨[], 0, 0, 0, false⟩, false⟩

inductive Event
  | probe (o : Outcomes)
  | remove
  deriving DecidableEq, Repr

/-- The kernel probes a device that is not bound, and removes one that is. -/
def step (dev : Device) (s : State) : Event → Option State
  | .probe o =>
    if s.bound then none
    else
      let r := tftLcdProbe s.driver dev o
      some ⟨r.2, r.1⟩
  | .remove => if s.bound then some ⟨tftLcdRemove s.driver dev, false⟩ else none

/-- The driver holds nothing. -/
structure Nothing (d : Driver) : Prop where
  gpios : d.gpios = []
  dmaBuffers : d.dmaBuffers = 0
  framebuffers : d.framebuffers = 0
  threads : d.threads = 0

/-- While the device is not bound the driver holds nothing, and it freed no GPIO that it did not
hold. -/
structure Balanced (s : State) : Prop where
  nothing : s.bound = false → Nothing s.driver
  wrongFree : s.driver.wrongFree = false

/-- The probes that leave nothing behind if they fail: the first GPIO is requested, and then the
two GPIOs are one, or the calls up to the direction of the second succeed, and the memory
allocations do if that does. -/
def CleanProbe (dev : Device) (o : Outcomes) : Prop :=
  o.requestReset = true ∧ (dev.rsGpio = dev.resetGpio ∨
    (o.directionReset = true ∧ o.requestRs = true ∧
      (o.directionRs = true → o.dmaAlloc = true ∧ o.framebufferAlloc = true)))

/-- A bound device is not removed, and every probe is clean. -/
def Clean (dev : Device) (s : State) : Event → Prop
  | .probe o => s.bound = false → CleanProbe dev o
  | .remove => s.bound = false

/-! ## One probe of an unbound device -/

/-- A driver that holds nothing and did nothing wrong. -/
abbrev idle : Driver := ⟨[], 0, 0, 0, false⟩

/-- What it holds for a bound device. -/
def running (dev : Device) : Driver := ⟨[dev.rsGpio, dev.resetGpio], 1, 1, 1, false⟩

section Probe
variable {dev : Device} {o : Outcomes}

/-- The first GPIO is refused: the second one is freed without a request. -/
lemma lcdDtParse_of_requestReset (h : o.requestReset = false) :
    lcdDtParse idle dev o = (false, { idle with wrongFree := true }) := by
  simp [lcdDtParse, gpioRequest, gpioFree, h]

/-- Both names are one GPIO: the second request of it fails, or is not reached, and the free of
the second name frees it. -/
lemma lcdDtParse_of_same (h : o.requestReset = true) (hsame : dev.rsGpio = dev.resetGpio) :
    lcdDtParse idle dev o = (false, idle) := by
  cases hdir : o.directionReset <;> simp [lcdDtParse, gpioRequest, gpioFree, h, hsame, hdir]

/-- The first GPIO is held and the second is not: the label frees the wrong one. -/
lemma lcdDtParse_of_half (h : o.requestReset = true) (hne : dev.rsGpio ≠ dev.resetGpio)
    (hfail : ¬ (o.directionReset = true ∧ o.requestRs = true)) :
    lcdDtParse idle dev o = (false, { idle with gpios := [dev.resetGpio], wrongFree := true }) := by
  cases hdir : o.directionReset
  · simp [lcdDtParse, gpioRequest, gpioFree, h, hne, hdir]
  · have hrs : o.requestRs = false := by simpa [hdir] using hfail
    simp [lcdDtParse, gpioRequest, gpioFree, h, hne, hdir, hrs]

/-- Both are held: the label frees both. -/
lemma lcdDtParse_of_directionRs (h : o.requestReset = true) (hne : dev.rsGpio ≠ dev.resetGpio)
    (hreset : o.directionReset = true) (hrs : o.requestRs = true) (hdir : o.directionRs = false) :
    lcdDtParse idle dev o = (false, idle) := by
  simp [lcdDtParse, gpioRequest, gpioFree, h, hne, hreset, hrs, hdir, hne.symm]

lemma lcdDtParse_ok (h : o.requestReset = true) (hne : dev.rsGpio ≠ dev.resetGpio)
    (hreset : o.directionReset = true) (hrs : o.requestRs = true) (hdir : o.directionRs = true) :
    lcdDtParse idle dev o = (true, { idle with gpios := [dev.rsGpio, dev.resetGpio] }) := by
  simp [lcdDtParse, gpioRequest, h, hne, hreset, hrs, hdir]

/-- A probe whose device tree part fails ends with it. -/
lemma tftLcdProbe_of_parse {d : Driver} (h : lcdDtParse idle dev o = (false, d)) :
    tftLcdProbe idle dev o = (false, d) := by
  unfold tftLcdProbe
  rw [h]

/-- A probe whose memory allocations decide. -/
lemma tftLcdProbe_of_register (h : o.requestReset = true) (hne : dev.rsGpio ≠ dev.resetGpio)
    (hreset : o.directionReset = true) (hrs : o.requestRs = true) (hdir : o.directionRs = true) :
    tftLcdProbe idle dev o
      = if o.dmaAlloc = true ∧ o.framebufferAlloc = true then (true, running dev)
        else (false, { idle with gpios := [dev.rsGpio, dev.resetGpio] }) := by
  unfold tftLcdProbe
  rw [lcdDtParse_ok h hne hreset hrs hdir]
  cases hdma : o.dmaAlloc <;> cases hfb : o.framebufferAlloc <;>
    simp [tftLcdFbRegister, hdma, hfb, running]

/-- A clean probe fails with nothing or succeeds with everything. -/
lemma tftLcdProbe_clean (h : CleanProbe dev o) :
    tftLcdProbe idle dev o = (false, idle) ∨ tftLcdProbe idle dev o = (true, running dev) := by
  obtain ⟨hreq, hsame | ⟨hreset, hrs, halloc⟩⟩ := h
  · exact .inl (tftLcdProbe_of_parse (lcdDtParse_of_same hreq hsame))
  by_cases hsame : dev.rsGpio = dev.resetGpio
  · exact .inl (tftLcdProbe_of_parse (lcdDtParse_of_same hreq hsame))
  cases hdir : o.directionRs with
  | false =>
    exact .inl (tftLcdProbe_of_parse (lcdDtParse_of_directionRs hreq hsame hreset hrs hdir))
  | true =>
    rw [tftLcdProbe_of_register hreq hsame hreset hrs hdir, if_pos (halloc hdir)]
    exact .inr rfl

/-- A probe that is not clean fails, and keeps a GPIO or freed one that it did not hold. -/
lemma tftLcdProbe_not_clean (h : ¬ CleanProbe dev o) :
    ∃ d, tftLcdProbe idle dev o = (false, d) ∧ (d.gpios ≠ [] ∨ d.wrongFree = true) := by
  cases hreq : o.requestReset with
  | false => exact ⟨_, tftLcdProbe_of_parse (lcdDtParse_of_requestReset hreq), .inr rfl⟩
  | true =>
    have hne : dev.rsGpio ≠ dev.resetGpio := fun hsame => h ⟨hreq, .inl hsame⟩
    by_cases hhalf : o.directionReset = true ∧ o.requestRs = true
    · -- both GPIOs are held, and the memory allocations fail
      have halloc : ¬ (o.directionRs = true → o.dmaAlloc = true ∧ o.framebufferAlloc = true) :=
        fun halloc => h ⟨hreq, .inr ⟨hhalf.1, hhalf.2, halloc⟩⟩
      obtain ⟨hdir, hfail⟩ := Classical.not_imp.mp halloc
      refine ⟨{ idle with gpios := [dev.rsGpio, dev.resetGpio] }, ?_, .inl (by simp)⟩
      rw [tftLcdProbe_of_register hreq hne hhalf.1 hhalf.2 hdir, if_neg hfail]
    · exact ⟨_, tftLcdProbe_of_parse (lcdDtParse_of_half hreq hne hhalf), .inr rfl⟩

end Probe

/-! ## Runs -/

/-- What the driver holds, by whether the device is bound. -/
def Inv (dev : Device) (s : State) : Prop :=
  s.driver = if s.bound then running dev else idle

section Runs
variable {dev : Device} {s : State}

lemma Inv.balanced (h : Inv dev s) : Balanced s := by
  unfold Inv at h
  constructor
  · intro hunbound
    rw [h, hunbound]
    exact ⟨rfl, rfl, rfl, rfl⟩
  · rw [h]
    split <;> rfl

theorem inv_step (s : State) (e : Event) (s' : State) (h : Inv dev s) (hclean : Clean dev s e)
    (hstep : step dev s e = some s') : Inv dev s' := by
  cases e with
  | probe o =>
    cases hbound : s.bound with
    | true => simp [step, hbound] at hstep
    | false =>
      have hidle : s.driver = idle := by rw [h, hbound]; rfl
      simp only [step, hbound, hidle, Bool.false_eq_true, if_false, Option.some.injEq] at hstep
      rw [← hstep]
      unfold Inv
      rcases tftLcdProbe_clean (hclean hbound) with hprobe | hprobe <;> rw [hprobe] <;> rfl
  | remove =>
    rw [step, if_neg (by rw [hclean]; decide)] at hstep
    simp at hstep

/-- A remove keeps the DMA memory, the framebuffer and the thread, a probe that is not clean a
GPIO or a wrong free. -/
lemma breaks (s : State) (e : Event) (h : Inv dev s) (hclean : ¬ Clean dev s e) :
    ∃ s', step dev s e = some s' ∧ ¬ Balanced s' := by
  cases e with
  | probe o =>
    obtain ⟨hbound, hprobe⟩ := Classical.not_imp.mp hclean
    obtain ⟨d, hd, hleft⟩ := tftLcdProbe_not_clean hprobe
    have hidle : s.driver = idle := by rw [h, hbound]; rfl
    refine ⟨⟨d, false⟩, ?_, fun hbal => ?_⟩
    · simp only [step, hbound, hidle, hd, Bool.false_eq_true, if_false]
    · rcases hleft with hgpios | hfree
      · exact hgpios (hbal.nothing rfl).gpios
      · rw [hbal.wrongFree] at hfree
        simp at hfree
  | remove =>
    have hbound : s.bound = true := by simpa [Clean] using hclean
    have hrunning : s.driver = running dev := by rw [h, hbound]; rfl
    refine ⟨⟨tftLcdRemove s.driver dev, false⟩, by rw [step, if_pos hbound], fun hbal => ?_⟩
    have hdma : (tftLcdRemove s.driver dev).dmaBuffers = 1 := by
      rw [hrunning]
      simp [tftLcdRemove, gpioFree, running]
    rw [(hbal.nothing rfl).dmaBuffers] at hdma
    simp at hdma

/-- **Exactly when the driver is balanced.** For every device and every sequence of probes and
removes: in every state an unbound device holds nothing and no GPIO was freed wrongly, if and only
if every probe is clean and no bound device is removed. -/
theorem balanced_iff (dev : Device) (events : List Event) :
    Always (step dev) Balanced start events ↔ EveryStep (step dev) (Clean dev) start events :=
  always_iff_everyStep (fun _ h => Inv.balanced h) inv_step breaks events (s := start) rfl

end Runs

/-- A probe and a remove, with all kernel calls successful: the DMA memory, the framebuffer and
the thread stay. -/
theorem remove_keeps_memory :
    ¬ ∀ events, Always (step ⟨1, 2⟩) Balanced start events := by
  intro h
  have hrun : run (step ⟨1, 2⟩) start [.probe ⟨true, true, true, true, true, true⟩, .remove]
      = some ⟨⟨[], 1, 1, 1, false⟩, false⟩ := by decide
  exact absurd ((of_always (h _) hrun).nothing rfl).dmaBuffers (by decide)

end IpncRdk.SpiLcd
