import Stencil.Data.Value

/-!
# The configuration of an engine

A section of a configuration sets the options that it names; others keep their defaults.  The
values are kept as they were given.
-/

namespace Stencil.Config

open Stencil.Data

structure TemplateConfig where
  viewsDirectory : Value := .text "views"
  layoutsDirectory : Value := .null
  modulesDirectory : Value := .text "modules"
  viewSuffix : Value := .text ".view.html"
  layoutSuffix : Value := .text ".layout.html"
  escape : Value := .bool true
  strictBlocks : Value := .bool true
  maxLayoutDepth : Value := .int 20
  sandbox : Value := .bool true
  autoescape : Value := .bool true
  strictUndefined : Value := .bool false
  minifyOutput : Value := .bool false
  cacheEnabled : Value := .bool true
  cacheSize : Value := .int 256
  cacheSheets : Value := .bool false
  removeUnusedRules : Value := .bool false

namespace TemplateConfig

/-- The options that a section sets.  Names that are no options are passed over. -/
def ofSection (options : Value) : TemplateConfig :=
  let standard : TemplateConfig := {}
  let option (name : String) (fallback : Value) : Value := (options.field? name).getD fallback
  { viewsDirectory := option "views_dir" standard.viewsDirectory
    layoutsDirectory := option "layouts_dir" standard.layoutsDirectory
    modulesDirectory := option "modules_dir" standard.modulesDirectory
    viewSuffix := option "view_suffix" standard.viewSuffix
    layoutSuffix := option "layout_suffix" standard.layoutSuffix
    escape := option "escape" standard.escape
    strictBlocks := option "strict_blocks" standard.strictBlocks
    maxLayoutDepth := option "max_layout_depth" standard.maxLayoutDepth
    sandbox := option "sandbox" standard.sandbox
    autoescape := option "autoescape" standard.autoescape
    strictUndefined := option "strict_undefined" standard.strictUndefined
    minifyOutput := option "minify_output" standard.minifyOutput
    cacheEnabled := option "cache_enabled" standard.cacheEnabled
    cacheSize := option "cache_size" standard.cacheSize
    cacheSheets := option "css_cache" standard.cacheSheets
    removeUnusedRules := option "remove_unused_css" standard.removeUnusedRules }

def toSection (config : TemplateConfig) : Value :=
  .map
    [(.text "views_dir", config.viewsDirectory), (.text "layouts_dir", config.layoutsDirectory),
     (.text "modules_dir", config.modulesDirectory), (.text "view_suffix", config.viewSuffix),
     (.text "layout_suffix", config.layoutSuffix), (.text "escape", config.escape),
     (.text "strict_blocks", config.strictBlocks),
     (.text "max_layout_depth", config.maxLayoutDepth), (.text "sandbox", config.sandbox),
     (.text "autoescape", config.autoescape), (.text "strict_undefined", config.strictUndefined),
     (.text "minify_output", config.minifyOutput), (.text "cache_enabled", config.cacheEnabled),
     (.text "cache_size", config.cacheSize), (.text "css_cache", config.cacheSheets),
     (.text "remove_unused_css", config.removeUnusedRules)]

def same (a b : TemplateConfig) : Bool :=
  a.toSection.same b.toSection

/-- Writing all options and reading them again changes nothing. -/
theorem ofSection_toSection (config : TemplateConfig) :
    ofSection config.toSection = config := by
  simp [ofSection, toSection, Value.field?, Table.get?, List.find?, BEq.beq, Key.same]

end TemplateConfig

end Stencil.Config
