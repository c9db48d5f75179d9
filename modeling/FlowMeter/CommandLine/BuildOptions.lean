import FlowMeter.Build.Plan
import FlowMeter.CommandLine.Parse
/-!
# Options of the build tool

The commands of the build tool and their options.
-/
namespace FlowMeter.CommandLine.BuildOptions

open FlowMeter.Build (Architecture Order)

def architectureWords : List String := ["bpf-el", "bpf-eb"]

def classifiersCommand : Command where
  name := "build-ebpf"
  options := [{ name := "target", kind := .choice architectureWords }, { name := "release", kind := .switch }]

def runCommand : Command where
  name := "run"
  options :=
    [{ name := "bpf-target", kind := .choice architectureWords }, { name := "release", kind := .switch },
      { name := "runner", letter := 'r', kind := .text }]
  takesWords := true

def grammar : Grammar where
  shared := []
  commands := [classifiersCommand, runCommand]

def architecture (word : String) : Architecture := if word = "bpf-eb" then .big else .little

def ofParsed (p : Parsed) : Order :=
  if p.command = classifiersCommand.name then
    .classifiers (architecture (p.textD "target" "bpf-el")) (p.switchD "release")
  else
    .run (architecture (p.textD "bpf-target" "bpf-el")) (p.switchD "release") (p.textD "runner" "sudo -E") p.words

end FlowMeter.CommandLine.BuildOptions
