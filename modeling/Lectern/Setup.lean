import Lectern.Config
import Lectern.Host
import Lectern.Wire.Plan

/-!
# Setting a host up

A host starts from a configuration and the files that it names. Its Bible has to be
readable; its library is only looked at when something is asked of it.
-/

namespace Lectern

open Scripture

def Host.setUp (config : Config) (files : String → File) (clock : Clock) (serverTime : String) :
    Except Failure Host := do
  let verses ← datasetOfFile config.bible (files config.bible)
  return {
    desk := .initial ⟨config.display, 0⟩ clock .empty
    sources := ⟨.ofFile config.library (files config.library), .ofDataset verses⟩
    serverTime }

end Lectern
