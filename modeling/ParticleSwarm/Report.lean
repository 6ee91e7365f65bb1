import ParticleSwarm.Optimizer

/-!
# Reports

The text of a run is one line; the report of a batch has a line for each run, the name of the
objective, the best run and the mean if there are runs, and the number of runs.  Coordinates have
four places and fitness values ten.
-/

namespace ParticleSwarm

namespace Report

def coordinate (v : Float) : String := Decimal.fixedPlaces 4 v

def fitness (v : Float) : String := Decimal.fixedPlaces 10 v

end Report

def RunResult.text (r : RunResult) : String :=
  "Best Point: (" ++ Report.coordinate r.best.point.x ++ ", " ++
    Report.coordinate r.best.point.y ++ ") with fitness (global minimum): " ++
    Report.fitness r.best.fitness

def Summary.lines (s : Summary) : List String :=
  s.runs.map RunResult.text
    ++ ["", "Objective: " ++ s.objectiveName]
    ++ (s.bestRun?.map fun r => "Best of all runs: " ++ r.text).toList
    ++ (s.mean?.map fun m => "Mean fitness: " ++ Report.fitness m).toList
    ++ ["", "The PSO was executed " ++ toString s.runs.length ++ " times"]

def Summary.text (s : Summary) : String := "\n".intercalate s.lines

end ParticleSwarm
