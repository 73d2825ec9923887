import Gcad.Common

/-!
# Threat events

The record that the engines report and the service transports. `ThreatLevel`
and `ThreatCategory` have a fixed underlying type, so a field of that type
holds any number of its width; the enumerators name some of them.
-/

namespace Gcad.Threat

open Common

/-- The underlying value of a level. -/
def levelValue (level : ThreatLevel) : UInt8 := UInt8.ofNat level.rank

/-- The enumerators of `ThreatLevel`. -/
def levels : List ThreatLevel := [.safe,.low,.medium,.high,.critical]

/-- The enumerator with an underlying value, if there is one. -/
def levelOf (value : UInt8) : Option ThreatLevel := levels.find? fun level => levelValue level=value

/-- The enumerators of `ThreatCategory`. -/
inductive ThreatCategory where
  | none
  | memoryInjection
  | processHollow
  | dllInjection
  | apcInjection
  | reflectiveLoad
  | shellcode
  | networkScan
  | synFlood
  | udpFlood
  | dnsTunnel
  | arpPoison
  | icmpCovert
  | rawSocketProbe
  | ransomware
  | fileEncrypt
  | registryTamper
  | backdoorAccount
  | evasionAmsi
  | evasionEtw
  | evasionUnhook
  | directSyscall
  | ppidSpoof
  | kerberosAttack
  | ntlmCoerce
  | credentialDump
  | entropyAnomaly
  | suspiciousBinary
  | filelessExec
  | antiForensic
  | dgaDomain
  | c2Beacon
  | fileIntegrityViolation
  | yaraRuleMatch
  | devicePolicy
  | kernelAttack
  | lolbinExecution
  | malwarePacker
  | persistenceHijack
  deriving DecidableEq, Repr

/-- The underlying value of a category. -/
def ThreatCategory.value : ThreatCategory → UInt16
  | .none => 0x0000
  | .memoryInjection => 0x0100
  | .processHollow => 0x0101
  | .dllInjection => 0x0102
  | .apcInjection => 0x0103
  | .reflectiveLoad => 0x0104
  | .shellcode => 0x0105
  | .networkScan => 0x0200
  | .synFlood => 0x0201
  | .udpFlood => 0x0202
  | .dnsTunnel => 0x0203
  | .arpPoison => 0x0204
  | .icmpCovert => 0x0205
  | .rawSocketProbe => 0x0206
  | .ransomware => 0x0300
  | .fileEncrypt => 0x0301
  | .registryTamper => 0x0302
  | .backdoorAccount => 0x0303
  | .evasionAmsi => 0x0400
  | .evasionEtw => 0x0401
  | .evasionUnhook => 0x0402
  | .directSyscall => 0x0403
  | .ppidSpoof => 0x0404
  | .kerberosAttack => 0x0500
  | .ntlmCoerce => 0x0501
  | .credentialDump => 0x0502
  | .entropyAnomaly => 0x0600
  | .suspiciousBinary => 0x0700
  | .filelessExec => 0x0800
  | .antiForensic => 0x0900
  | .dgaDomain => 0x0207
  | .c2Beacon => 0x0208
  | .fileIntegrityViolation => 0x0a00
  | .yaraRuleMatch => 0x0b00
  | .devicePolicy => 0x0c00
  | .kernelAttack => 0x0d00
  | .lolbinExecution => 0x0e00
  | .malwarePacker => 0x0701
  | .persistenceHijack => 0x0702

/-- All enumerators of `ThreatCategory`. -/
def categories : List ThreatCategory :=
  [.none,.memoryInjection,.processHollow,.dllInjection,.apcInjection,.reflectiveLoad,.shellcode,
    .networkScan,.synFlood,.udpFlood,.dnsTunnel,.arpPoison,.icmpCovert,.rawSocketProbe,
    .ransomware,.fileEncrypt,.registryTamper,.backdoorAccount,.evasionAmsi,.evasionEtw,
    .evasionUnhook,.directSyscall,.ppidSpoof,.kerberosAttack,.ntlmCoerce,.credentialDump,
    .entropyAnomaly,.suspiciousBinary,.filelessExec,.antiForensic,.dgaDomain,.c2Beacon,
    .fileIntegrityViolation,.yaraRuleMatch,.devicePolicy,.kernelAttack,.lolbinExecution,
    .malwarePacker,.persistenceHijack]

/-- The enumerator with an underlying value, if there is one. -/
def categoryOf (value : UInt16) : Option ThreatCategory :=
  categories.find? fun category => category.value=value

/-- `ThreatEvent`. -/
@[ext]
structure ThreatEvent where
  /-- Number of the event. -/
  id : UInt64
  /-- Time of the event. -/
  timestamp : TimePoint
  /-- Underlying value of the level. -/
  level : UInt8
  /-- Underlying value of the category. -/
  category : UInt16
  /-- Process the event is about. -/
  processId : UInt32
  /-- Name of that process. -/
  processName : Str
  /-- File the event is about. -/
  filePath : Str
  /-- What happened. -/
  description : Str
  /-- Remote address. -/
  sourceIp : Str
  /-- Remote port. -/
  sourcePort : UInt16
  /-- The file was quarantined. -/
  quarantined : Bool
  /-- The changes were rolled back. -/
  rolledBack : Bool

/-- Member initialisers of `ThreatEvent`. -/
def ThreatEvent.default : ThreatEvent :=
  ⟨0,0,levelValue .safe,ThreatCategory.none.value,0,[],[],[],[],0,false,false⟩

/-- Every enumerator is found under its value. -/
theorem categoryOf_value (category : ThreatCategory) : categoryOf category.value=some category := by
  cases category <;> decide

/-- Every level is found under its value. -/
theorem levelOf_value (level : ThreatLevel) : levelOf (levelValue level)=some level := by
  cases level <;> decide

end Gcad.Threat
