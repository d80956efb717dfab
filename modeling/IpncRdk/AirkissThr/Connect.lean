import IpncRdk.Lib.CString
import IpncRdk.Lib.Shell

/-!
# `airkissThr.c`: the command that connects to the access point

When AirKiss has delivered a name and a password, `airkissThr` writes both into the command
`wifimode apsta %s %s &` and has the shell run it. Nothing is quoted there, so the shell splits the
name and the password like the rest of the line.
-/

namespace IpncRdk.AirkissThr

open Lib

/-- What `airkiss_get_result` returns of `airkiss_result_t`. -/
structure AirkissResult where
  pwd : CString
  ssid : CString
  pwdLength : pwd.bytes.length ≤ 64
  ssidLength : ssid.bytes.length ≤ 32

/-- `wifimode` -/
def wifimode : List UInt8 := [119, 105, 102, 105, 109, 111, 100, 101]

/-- `apsta` -/
def apsta : List UInt8 := [97, 112, 115, 116, 97]

/-- The text of `wifimode apsta %s %s &`. -/
def connectText (result : AirkissResult) : List UInt8 :=
  wifimode ++ 32 :: apsta ++ 32 :: result.ssid.bytes ++ 32 :: result.pwd.bytes ++ [32, 38]

/-- `snprintf(cmd,128,"wifimode apsta %s %s &",ak_result.ssid, ak_result.pwd)` -/
def connectCommand (result : AirkissResult) : List UInt8 := (connectText result).take 127

/-- The shell runs `wifimode` in the background, with the name and the password as arguments. -/
def RunsWifimode (result : AirkissResult) : Prop :=
  Shell.read (connectCommand result)
    = some [⟨[wifimode, apsta, result.ssid.bytes, result.pwd.bytes], true⟩]

/-! ## The command line -/

section Command
variable (result : AirkissResult)

lemma connectText_eq_line :
    connectText result = Shell.line [wifimode, apsta, result.ssid.bytes, result.pwd.bytes] := by
  unfold connectText
  simp [Shell.line]

/-- The longest name and the longest password fit. -/
lemma length_connectText_le : (connectText result).length ≤ 114 := by
  have hssid := result.ssidLength
  have hpwd := result.pwdLength
  have hwifimode : wifimode.length = 8 := rfl
  have hapsta : apsta.length = 5 := rfl
  unfold connectText
  simp only [List.length_append, List.length_cons, List.length_nil, hwifimode, hapsta]
  omega

lemma connectCommand_eq_line :
    connectCommand result = Shell.line [wifimode, apsta, result.ssid.bytes, result.pwd.bytes] := by
  have hlength := length_connectText_le result
  unfold connectCommand
  rw [List.take_of_length_le (by omega), connectText_eq_line]

end Command

lemma literal_wifimode : Shell.Literal wifimode where
  nonempty := by decide
  plain := fun b hb => Bool.eq_false_iff.mpr (List.any_eq_false.mp rfl b hb)
  noComment := by decide
  noTilde := by decide
  noPattern := by decide

lemma literal_apsta : Shell.Literal apsta where
  nonempty := by decide
  plain := fun b hb => Bool.eq_false_iff.mpr (List.any_eq_false.mp rfl b hb)
  noComment := by decide
  noTilde := by decide
  noPattern := by decide

/-- **Credentials in the command.** A name and a password become the two arguments of `wifimode` if
and only if both are literal: nonempty, without any byte that the shell splits or quotes at, with no
`#` or `~` in front, and no pattern. -/
theorem runsWifimode_iff (result : AirkissResult) :
    RunsWifimode result ↔ Shell.Literal result.ssid.bytes ∧ Shell.Literal result.pwd.bytes := by
  unfold RunsWifimode
  rw [connectCommand_eq_line, Shell.read_line_iff (by decide)]
  constructor
  · intro h
    exact ⟨h result.ssid.bytes (by simp), h result.pwd.bytes (by simp)⟩
  · rintro ⟨hssid, hpwd⟩ a ha
    simp only [List.mem_cons, List.not_mem_nil, or_false] at ha
    obtain rfl | rfl | rfl | rfl := ha
    · exact literal_wifimode
    · exact literal_apsta
    · exact hssid
    · exact hpwd

/-- `reboot` -/
def reboot : List UInt8 := [114, 101, 98, 111, 111, 116]

/-- The name `a;reboot` and the password `p`. -/
def rebootResult : AirkissResult where
  pwd := ⟨[112], by decide⟩
  ssid := ⟨97 :: 59 :: reboot, by decide⟩
  pwdLength := by decide
  ssidLength := by decide

/-- The name of an access point runs a second program. -/
theorem rebootResult_not_runsWifimode :
    Shell.read (connectCommand rebootResult)
        = some [⟨[wifimode, apsta, [97]], false⟩, ⟨[reboot, [112]], true⟩] ∧
      ¬ RunsWifimode rebootResult := by
  have hread : Shell.read (connectCommand rebootResult)
      = some [⟨[wifimode, apsta, [97]], false⟩, ⟨[reboot, [112]], true⟩] := by
    decide
  refine ⟨hread, fun h => ?_⟩
  unfold RunsWifimode at h
  rw [hread] at h
  exact absurd h (by decide)

end IpncRdk.AirkissThr
