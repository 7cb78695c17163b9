import Nixnas.Tui.SizedExpr
import Nixnas.Ui.Configure

/-!
# The host of a sized build

The Configure screen takes any trimmed text for `host_attr`, and a sized build
writes it into the expression of `nix build --expr`.
-/

set_option autoImplicit false

namespace Nixnas.Ui.SizedBuild

open Nixnas.Nix
open Nixnas.Tui.Build (SizeOverride nixArgs sizedExpr sizedTree)
open Nixnas.Tui.Settings (Config)
open Nixnas.Ui.Configure (ConfigureState Normal standard_normal toConfig_fromConfig)

/-- The settings that the pipeline reads. -/
def pipelineConfig (cfg : Config) : Tui.Build.Config :=
  ⟨cfg.sbKeysSops, cfg.imageAttr, cfg.hostAttr⟩

/-- The expression of a sized build is that of the configuration named by the host, extended
with the size, exactly when the host needs no quotes. -/
theorem sized_expression_iff {cfg : Config} {host : String} (set : cfg.hostAttr = some host)
    {size : SizeOverride} (range : size.InRange) {option : Text} {value : Node .expr}
    (forced : size.forced = some (option, value)) {scriptLink expr : String}
    (passed : ["--expr", expr] <:+ nixArgs scriptLink (pipelineConfig cfg) size) :
    Reads expr.toList (sizedTree [host.toList] option value) ↔ isAttrName host.toList = true := by
  rw [Tui.Build.passed_text set forced passed]
  exact Tui.Build.reads_sizedText_iff host.toList range forced

/-- Settings with this host. -/
def namedHost (host : String) : Config := { Config.standard with hostAttr := some host }

/-- The expression of its minimal image. -/
def minimalExpr (host : String) : String :=
  sizedExpr host ("nixnas.boot.usb.imageSizeGiB = lib.mkForce " ++ toString 6 ++ ";")

def minimalTree (names : List Text) : Node .expr :=
  sizedTree names "imageSizeGiB".toList (.int (toString 6).toList)

theorem minimalExpr_passed (host : String) :
    ["--expr", minimalExpr host] <:+ nixArgs "script" (pipelineConfig (namedHost host)) (.gib 6) :=
  ⟨["build", "--impure", "--print-build-logs", "--accept-flake-config", "--out-link", "script"], rfl⟩

theorem minimal_inRange : (SizeOverride.gib 6).InRange := by
  rw [SizeOverride.InRange]
  decide

theorem minimal_forced :
    (SizeOverride.gib 6).forced = some ("imageSizeGiB".toList, .int (toString 6).toList) := rfl

theorem sized_expression_iff_nas :
    Reads (minimalExpr "nas").toList (minimalTree ["nas".toList]) := by
  have set : (namedHost "nas").hostAttr = some "nas" := rfl
  have plain : isAttrName "nas".toList = true := by decide
  exact (sized_expression_iff set minimal_inRange minimal_forced (minimalExpr_passed "nas")).mpr plain

/-- The form takes a host with a dot, and the expression passed for it is that of another
attribute. -/
theorem dotted_host_not_itself :
    ∃ (st : ConfigureState) (cfg : Config) (expr : String),
      st.toConfig = .ok cfg ∧ cfg.hostAttr = some "nas.local" ∧
      ["--expr", expr] <:+ nixArgs "script" (pipelineConfig cfg) (.gib 6) ∧
      ¬ Reads expr.toList (minimalTree ["nas.local".toList]) ∧
      Reads expr.toList (minimalTree ["nas".toList, "local".toList]) := by
  have normal : Normal (namedHost "nas.local") :=
    { standard_normal with
      hostAttr := by
        rintro s ⟨⟩
        exact ⟨by decide, rfl⟩ }
  have passed := minimalExpr_passed "nas.local"
  have set : (pipelineConfig (namedHost "nas.local")).hostAttr = some "nas.local" := rfl
  have text := Tui.Build.passed_text set minimal_forced passed
  have quoted : isAttrName "nas.local".toList = false := by decide
  have path : "nas.local".toList = dotted ["nas".toList, "local".toList] := by decide
  refine ⟨.fromConfig (namedHost "nas.local") false, namedHost "nas.local", minimalExpr "nas.local",
    toConfig_fromConfig normal false, rfl, passed, ?_, ?_⟩
  · rw [text]
    exact Tui.Build.not_reads_quoted quoted minimal_forced
  · rw [text, path]
    exact Tui.Build.reads_dotted (List.cons_ne_nil _ _) (by decide) minimal_inRange minimal_forced

end Nixnas.Ui.SizedBuild
